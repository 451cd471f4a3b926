/- PrivateBtc/Contracts/VaultRuns
   digest: What every run of calls keeps: the maps follow the accepted calls, payouts are covered. -/

import PrivateBtc.Contracts.Vault

set_option autoImplicit false
set_option relaxedAutoImplicit false

namespace PrivateBtc.Contracts.VaultRuns

open Library Library.Outcome Library.Transactional Corelib Vault
open Hashing (Digest HashFunction doubleSha256)
open MockBtc (share)
open RawTransaction (parseOutput scriptMatchesP2tr)

/-- The accepted calls, each with the world it was made in. -/
abbrev Past := List (World × Call)

def depositArgs : Call → Option DepositArgs
  | .deposit _ args => some args
  | _ => none

def withdrawArgs : Call → Option WithdrawArgs
  | .withdraw _ args => some args
  | _ => none

def deposits (past : Past) : List DepositArgs := past.filterMap fun entry => depositArgs entry.2

def withdrawals (past : Past) : List WithdrawArgs := past.filterMap fun entry => withdrawArgs entry.2

/-- The tokens that a call brings to an account without a deposit. -/
def arrivals (account : ContractAddress) : Call → Nat
  | .transfer _ recipient amount => share account recipient amount
  | .transferFrom _ _ recipient amount => share account recipient amount
  | .mint _ recipient amount => share account recipient amount
  | _ => 0

/-- What withdrawals paid to accounts other than the vault itself. -/
def paidOut (vault : ContractAddress) (past : Past) : Nat :=
  ((withdrawals past).map fun args => if args.recipient = vault then 0 else args.amount.val).sum

def depositedSats (past : Past) : Nat := ((deposits past).map DepositArgs.amountSats).sum

def arrived (vault : ContractAddress) (past : Past) : Nat :=
  (past.map fun entry => arrivals vault entry.2).sum

/-- What an accepted call does: a deposit, a withdrawal, or no change of the vault. -/
theorem execute_ok {sha : HashFunction} {w w' : World} {call : Call}
    (accepted : execute sha w call = .ok w') :
    (∃ caller args, call = .deposit caller args ∧ deposit sha w args = .ok w') ∨
    (∃ caller args, call = .withdraw caller args ∧ withdraw w args = .ok w') ∨
    (depositArgs call = none ∧ withdrawArgs call = none ∧ w'.address = w.address ∧
      w'.vault = w.vault ∧
      ∀ x, (w'.token.balances x).val ≤ (w.token.balances x).val + arrivals x call) := by
  cases call with
  | deposit caller args => exact Or.inl ⟨caller, args, rfl, accepted⟩
  | withdraw caller args => exact Or.inr (Or.inl ⟨caller, args, rfl, accepted⟩)
  | storeHeader caller height merkleRoot =>
      simp only [execute, bind_eq_ok, pure_eq_ok, Except.ok.injEq] at accepted
      obtain ⟨headers, -, rfl⟩ := accepted
      exact Or.inr (Or.inr ⟨rfl, rfl, rfl, rfl, fun x => Nat.le_add_right _ _⟩)
  | transfer caller recipient amount =>
      simp only [execute, MockBtc.transfer, bind_eq_ok, pure_eq_ok, Except.ok.injEq] at accepted
      obtain ⟨_, ⟨token, moved, rfl⟩, rfl⟩ := accepted
      refine Or.inr (Or.inr ⟨rfl, rfl, rfl, rfl, ?_⟩)
      intro x
      have balance := (MockBtc.InternalFunctions.transfer_ok moved).2.2.2.1 x
      simp only [arrivals]
      omega
  | approve caller spender amount =>
      simp only [execute, MockBtc.approve, bind_eq_ok, pure_eq_ok, Except.ok.injEq] at accepted
      obtain ⟨_, ⟨token, approved, rfl⟩, rfl⟩ := accepted
      refine Or.inr (Or.inr ⟨rfl, rfl, rfl, rfl, ?_⟩)
      intro x
      rw [(MockBtc.InternalFunctions.approve_ok approved).2.2.1]
      exact Nat.le_add_right _ _
  | transferFrom caller sender recipient amount =>
      simp only [execute, MockBtc.transferFrom, bind_eq_ok, pure_eq_ok, Except.ok.injEq] at accepted
      obtain ⟨_, ⟨spent, spends, token, moved, rfl⟩, rfl⟩ := accepted
      refine Or.inr (Or.inr ⟨rfl, rfl, rfl, rfl, ?_⟩)
      intro x
      have balance := (MockBtc.InternalFunctions.transfer_ok moved).2.2.2.1 x
      rw [(MockBtc.InternalFunctions.spendAllowance_ok spends).1] at balance
      simp only [arrivals]
      omega
  | mint caller recipient amount =>
      simp only [execute, MockBtc.mint, bind_eq_ok, pure_eq_ok, Except.ok.injEq] at accepted
      obtain ⟨token, minted, rfl⟩ := accepted
      refine Or.inr (Or.inr ⟨rfl, rfl, rfl, rfl, ?_⟩)
      intro x
      exact le_of_eq ((MockBtc.InternalFunctions.mint_ok minted).2.2.1 x)

theorem toWei_val {amountSats : Nat} (bound : amountSats < 2 ^ 64) :
    (toWei amountSats).val = 10 ^ 10 * amountSats := by
  have exact_value : (toWei amountSats).val = amountSats * 10000000000 % 2 ^ 256 := rfl
  rw [exact_value, Nat.mod_eq_of_lt (by omega)]
  omega

/-- The state of the vault and its balance, told by the accepted calls. -/
structure Ledger (sha : HashFunction) (genesis : Genesis) (past : Past) (w : World) : Prop where
  address : w.address = genesis.world.address
  spent : ∀ key, w.vault.spentTxids key = true ↔
    ∃ args ∈ deposits past, txidKey (args.txid sha) = key
  commitments : ∀ commitment, w.vault.commitments commitment = true ↔
    ∃ args ∈ deposits past, args.commitment = commitment
  nullifiers : ∀ nullifier, w.vault.nullifiers nullifier = true ↔
    ∃ args ∈ withdrawals past, args.nullifier = nullifier
  distinct : ((withdrawals past).map WithdrawArgs.nullifier).Nodup
  checked : ∀ entry ∈ past, ∀ args, withdrawArgs entry.2 = some args →
    args.proof ≠ [] ∧ args.amount ≤ entry.1.token.balances genesis.world.address
  covered : (w.token.balances genesis.world.address).val + paidOut genesis.world.address past ≤
    (genesis.world.token.balances genesis.world.address).val + 10 ^ 10 * depositedSats past +
      arrived genesis.world.address past

theorem deposits_snoc (past : Past) (w : World) (call : Call) :
    deposits (past ++ [(w, call)]) = deposits past ++ (depositArgs call).toList := by
  cases found : depositArgs call <;> simp [deposits, found]

theorem withdrawals_snoc (past : Past) (w : World) (call : Call) :
    withdrawals (past ++ [(w, call)]) = withdrawals past ++ (withdrawArgs call).toList := by
  cases found : withdrawArgs call <;> simp [withdrawals, found]

theorem nodup_map_snoc {A B : Type} {f : A → B} {earlier : List A} {last : A}
    (distinct : (earlier.map f).Nodup) (fresh : ∀ x ∈ earlier, f x ≠ f last) :
    ((earlier ++ [last]).map f).Nodup := by
  rw [List.map_append, List.map_singleton, List.nodup_append]
  refine ⟨distinct, List.nodup_singleton _, ?_⟩
  rintro y used z here rfl
  rw [List.mem_singleton.mp here, List.mem_map] at used
  obtain ⟨x, member, same⟩ := used
  exact fresh x member same

private theorem update_true_iff {K : Type} [DecidableEq K] (table : K → Bool) (key other : K) :
    Function.update table key true other = true ↔ table other = true ∨ key = other := by
  by_cases same : other = key
  · subst same
    simp
  · rw [Function.update_of_ne same]
    exact ⟨Or.inl, fun found => found.resolve_right fun equal => same equal.symm⟩

private theorem ledger_deposit {sha : HashFunction} {genesis : Genesis} {past : Past}
    {w w' : World} {caller : ContractAddress} {args : DepositArgs}
    (ledger : Ledger sha genesis past w) (accepted : deposit sha w args = .ok w') :
    Ledger sha genesis (past ++ [(w, .deposit caller args)]) w' := by
  obtain ⟨script, token, -, -, -, -, parsed, -, -, minted, rfl⟩ := deposit_ok accepted
  have made : deposits (past ++ [(w, .deposit caller args)]) = deposits past ++ [args] :=
    deposits_snoc past w _
  have taken : withdrawals (past ++ [(w, .deposit caller args)]) = withdrawals past := by
    rw [withdrawals_snoc]
    exact List.append_nil _
  refine ⟨ledger.address, ?_, ?_, ?_, ?_, ?_, ?_⟩
  · intro key
    rw [deposited, update_true_iff, ledger.spent, made]
    simp [or_and_right, exists_or]
  · intro commitment
    rw [deposited, update_true_iff, ledger.commitments, made]
    simp [or_and_right, exists_or]
  · intro nullifier
    rw [taken]
    exact ledger.nullifiers nullifier
  · rw [taken]
    exact ledger.distinct
  · intro entry member withdrawn found
    rcases List.mem_append.mp member with old | new
    · exact ledger.checked entry old withdrawn found
    · rw [List.mem_singleton.mp new] at found
      cases found
  · have balance := (MockBtc.InternalFunctions.mint_ok minted).2.2.1 genesis.world.address
    have wei := toWei_val (RawTransaction.parseOutput_amount_lt parsed)
    have own : share genesis.world.address w.address (toWei args.amountSats) =
        (toWei args.amountSats).val := by
      rw [share, ledger.address, if_pos rfl]
    have covered := ledger.covered
    have sats : depositedSats (past ++ [(w, .deposit caller args)]) =
        depositedSats past + args.amountSats := by
      simp [depositedSats, made]
    have out : paidOut genesis.world.address (past ++ [(w, .deposit caller args)]) =
        paidOut genesis.world.address past := by
      rw [paidOut, taken, paidOut]
    have came : arrived genesis.world.address (past ++ [(w, .deposit caller args)]) =
        arrived genesis.world.address past := by
      simp [arrived, arrivals]
    rw [own, wei] at balance
    rw [sats, out, came]
    simp only [deposited]
    omega

private theorem ledger_withdraw {sha : HashFunction} {genesis : Genesis} {past : Past}
    {w w' : World} {caller : ContractAddress} {args : WithdrawArgs}
    (ledger : Ledger sha genesis past w) (accepted : withdraw w args = .ok w') :
    Ledger sha genesis (past ++ [(w, .withdraw caller args)]) w' := by
  obtain ⟨token, fresh, nonempty, enough, moved, rfl⟩ := withdraw_ok accepted
  have made : deposits (past ++ [(w, .withdraw caller args)]) = deposits past := by
    rw [deposits_snoc]
    exact List.append_nil _
  have taken : withdrawals (past ++ [(w, .withdraw caller args)]) = withdrawals past ++ [args] :=
    withdrawals_snoc past w _
  refine ⟨ledger.address, ?_, ?_, ?_, ?_, ?_, ?_⟩
  · intro key
    rw [made]
    exact ledger.spent key
  · intro commitment
    rw [made]
    exact ledger.commitments commitment
  · intro nullifier
    rw [withdrawn, update_true_iff, ledger.nullifiers, taken]
    simp [or_and_right, exists_or]
  · rw [taken]
    refine nodup_map_snoc ledger.distinct ?_
    intro earlier member same
    have spent := (ledger.nullifiers args.nullifier).mpr ⟨earlier, member, same⟩
    rw [fresh] at spent
    cases spent
  · intro entry member later found
    rcases List.mem_append.mp member with old | new
    · exact ledger.checked entry old later found
    · rw [List.mem_singleton.mp new] at found ⊢
      cases found
      rw [← ledger.address]
      exact ⟨nonempty, enough⟩
  · have balance :=
      (MockBtc.InternalFunctions.transfer_ok moved).2.2.2.1 genesis.world.address
    have own : share genesis.world.address w.address args.amount = args.amount.val := by
      rw [share, ledger.address, if_pos rfl]
    have covered := ledger.covered
    have sats : depositedSats (past ++ [(w, .withdraw caller args)]) = depositedSats past := by
      rw [depositedSats, made, depositedSats]
    have out : paidOut genesis.world.address (past ++ [(w, .withdraw caller args)]) =
        paidOut genesis.world.address past +
          if args.recipient = genesis.world.address then 0 else args.amount.val := by
      simp [paidOut, taken]
    have came : arrived genesis.world.address (past ++ [(w, .withdraw caller args)]) =
        arrived genesis.world.address past := by
      simp [arrived, arrivals]
    rw [own, share] at balance
    rw [sats, out, came]
    simp only [withdrawn]
    by_cases self : args.recipient = genesis.world.address
    · rw [if_pos self.symm] at balance
      rw [if_pos self]
      omega
    · rw [if_neg fun equal => self equal.symm] at balance
      rw [if_neg self]
      omega

private theorem ledger_other {sha : HashFunction} {genesis : Genesis} {past : Past}
    {w w' : World} {call : Call} (ledger : Ledger sha genesis past w)
    (noDeposit : depositArgs call = none) (noWithdraw : withdrawArgs call = none)
    (address : w'.address = w.address) (vault : w'.vault = w.vault)
    (balance : (w'.token.balances genesis.world.address).val ≤
      (w.token.balances genesis.world.address).val + arrivals genesis.world.address call) :
    Ledger sha genesis (past ++ [(w, call)]) w' := by
  have made : deposits (past ++ [(w, call)]) = deposits past := by
    rw [deposits_snoc, noDeposit]
    exact List.append_nil _
  have taken : withdrawals (past ++ [(w, call)]) = withdrawals past := by
    rw [withdrawals_snoc, noWithdraw]
    exact List.append_nil _
  refine ⟨address.trans ledger.address, ?_, ?_, ?_, ?_, ?_, ?_⟩
  · rw [vault, made]
    exact ledger.spent
  · rw [vault, made]
    exact ledger.commitments
  · rw [vault, taken]
    exact ledger.nullifiers
  · rw [taken]
    exact ledger.distinct
  · intro entry member args found
    rcases List.mem_append.mp member with old | new
    · exact ledger.checked entry old args found
    · rw [List.mem_singleton.mp new, noWithdraw] at found
      cases found
  · have covered := ledger.covered
    have came : arrived genesis.world.address (past ++ [(w, call)]) =
        arrived genesis.world.address past + arrivals genesis.world.address call := by
      simp [arrived]
    rw [paidOut, taken, ← paidOut, depositedSats, made, ← depositedSats, came]
    omega

theorem ledger_step {sha : HashFunction} {genesis : Genesis} {past : Past} {w w' : World}
    {call : Call} (ledger : Ledger sha genesis past w) (accepted : execute sha w call = .ok w') :
    Ledger sha genesis (past ++ [(w, call)]) w' := by
  rcases execute_ok accepted with ⟨caller, args, rfl, accepted⟩ | ⟨caller, args, rfl, accepted⟩ |
    ⟨noDeposit, noWithdraw, address, vault, balance⟩
  · exact ledger_deposit ledger accepted
  · exact ledger_withdraw ledger accepted
  · exact ledger_other ledger noDeposit noWithdraw address vault (balance _)

theorem ledger_genesis (sha : HashFunction) (genesis : Genesis) :
    Ledger sha genesis [] genesis.world := by
  have deployed := genesis.deployed
  simp only [deploy, bind_eq_ok, pure_eq_ok, Except.ok.injEq] at deployed
  obtain ⟨token, -, start⟩ := deployed
  have vault := congrArg World.vault start
  have nothing : paidOut genesis.world.address [] = 0 ∧ depositedSats [] = 0 ∧
      arrived genesis.world.address [] = 0 := ⟨rfl, rfl, rfl⟩
  refine ⟨rfl, ?_, ?_, ?_, by simp [withdrawals], by simp, by simp [nothing]⟩
  · intro key
    rw [← vault]
    simp [deposits]
  · intro commitment
    rw [← vault]
    simp [deposits]
  · intro nullifier
    rw [← vault]
    simp [withdrawals]

/-- After every run of calls by arbitrary accounts the vault follows its accepted calls. -/
theorem ledger_run (sha : HashFunction) (genesis : Genesis) (calls : List Call) :
    Ledger sha genesis (history (execute sha) genesis.world calls)
      (run (execute sha) genesis.world calls) :=
  run_history_invariant (execute sha) (fun _ => True) (Ledger sha genesis)
    (fun _ _ _ _ ledger _ accepted => ledger_step ledger accepted) [] genesis.world
    (ledger_genesis sha genesis) calls fun _ _ => trivial

/-- The withdrawals are matched one-to-one with earlier deposits that cover them. -/
def Matched (past : Past) : Prop :=
  ∃ matching : Nat → Nat, ∀ i w caller args, past[i]? = some (w, .withdraw caller args) →
    matching i < i ∧
    (∃ w' caller' paid, past[matching i]? = some (w', .deposit caller' paid) ∧
      args.amount.val ≤ 10 ^ 10 * paid.amountSats) ∧
    ∀ j w' caller' args', past[j]? = some (w', .withdraw caller' args') →
      matching i = matching j → i = j

/-- Over every run a withdrawal needs a fresh nullifier, a nonempty proof and a balance
that covers it; all payouts together stay within the deposits and the tokens that the
vault received otherwise. -/
theorem withdrawals_covered (sha : HashFunction) (genesis : Genesis) (calls : List Call) :
    let past := history (execute sha) genesis.world calls
    let vault := genesis.world.address
    ((withdrawals past).map WithdrawArgs.nullifier).Nodup ∧
    (∀ entry ∈ past, ∀ args, withdrawArgs entry.2 = some args →
      args.proof ≠ [] ∧ args.amount ≤ entry.1.token.balances vault) ∧
    paidOut vault past ≤ (genesis.world.token.balances vault).val + 10 ^ 10 * depositedSats past +
      arrived vault past := by
  intro past vault
  have ledger := ledger_run sha genesis calls
  have covered := ledger.covered
  exact ⟨ledger.distinct, ledger.checked, le_trans (Nat.le_add_left _ _) covered⟩

section Robbed

/-- The vault at address 11, the relayer at 12, and the initial mint at 13. -/
def robbedWorld : World where
  address := 11
  vault := ⟨fun _ => false, fun _ => false, ⟨0, 0, 0, 0, 0, 0, 0, 0⟩, fun _ => false, []⟩
  token :=
    { totalSupply := MockBtc.initialMint
      balances := Function.update (fun _ => 0) 13 MockBtc.initialMint
      allowances := fun _ _ => 0
      events := [.transfer 0 13 MockBtc.initialMint] }
  headers := HeaderStore.constructor 12

def robbedGenesis : Genesis where
  world := robbedWorld
  vaultTapkey := ⟨0, 0, 0, 0, 0, 0, 0, 0⟩
  relayer := 12
  holder := 13
  address_ne_zero := by decide
  deployed := rfl

/-- Account 13 sends one token to the vault; account 14, without a deposit, takes it. -/
def robbery : List Call :=
  [.transfer 13 11 1000000000000000000, .withdraw 14 ⟨7, [0], 14, 1000000000000000000⟩]

theorem robbery_unmatched :
    ¬ Matched (history (execute Sha256.sha256) robbedGenesis.world robbery) := by
  rintro ⟨matching, covers⟩
  have entries : ∃ w w', history (execute Sha256.sha256) robbedGenesis.world robbery =
      [(w, .transfer 13 11 1000000000000000000),
        (w', .withdraw 14 ⟨7, [0], 14, 1000000000000000000⟩)] := ⟨_, _, rfl⟩
  obtain ⟨w, w', entries⟩ := entries
  rw [entries] at covers
  obtain ⟨before, ⟨v, caller, paid, found, -⟩, -⟩ := covers 1 w' 14 _ rfl
  rw [Nat.lt_one_iff.mp before] at found
  cases found

end Robbed

/-- Two digests that the key of `spent_txids` does not tell apart: the middle two
multipliers of each half leave only sixteen bits between `w1` and `w2`. -/
def Overlap (d e : Digest) : Prop :=
  d.w3 = e.w3 ∧ d.w7 = e.w7 ∧
    2 ^ 48 * d.w0.toNat + 2 ^ 16 * d.w1.toNat + d.w2.toNat =
      2 ^ 48 * e.w0.toNat + 2 ^ 16 * e.w1.toNat + e.w2.toNat ∧
    2 ^ 48 * d.w4.toNat + 2 ^ 16 * d.w5.toNat + d.w6.toNat =
      2 ^ 48 * e.w4.toNat + 2 ^ 16 * e.w5.toNat + e.w6.toNat

private theorem packU128_eq (a0 a1 a2 a3 b0 b1 b2 b3 : UInt32) :
    packU128 a0 a1 a2 a3 = packU128 b0 b1 b2 b3 ↔ a3 = b3 ∧
      2 ^ 48 * a0.toNat + 2 ^ 16 * a1.toNat + a2.toNat =
        2 ^ 48 * b0.toNat + 2 ^ 16 * b1.toNat + b2.toNat := by
  have a3_lt : a3.toNat < 4294967296 := a3.toNat_lt
  have b3_lt : b3.toNat < 4294967296 := b3.toNat_lt
  unfold packU128
  rw [← UInt32.toNat_inj]
  omega

theorem txidKey_eq (d e : Digest) : txidKey d = txidKey e ↔ Overlap d e := by
  rw [txidKey, txidKey, Prod.mk.injEq, packU128_eq, packU128_eq, Overlap]
  tauto

private theorem deposit_not_replayed {sha : HashFunction} {w : World} {args : DepositArgs}
    (unspent : w.vault.spentTxids (txidKey (args.txid sha)) = false) :
    Fails (· ≠ "Bitcoin txid already minted") (deposit sha w args) := by
  unfold deposit
  refine (assert_fails fun _ => by decide).bind ?_
  intro _ _
  refine (assert_fails fun _ => by decide).bind ?_
  intro _ stored
  have root := HeaderStore.getMerkleRoot_of_stored (assert_ok.mp stored)
  rw [DepositArgs.txid] at unspent
  rw [root, ok_bind]
  refine (assert_fails fun used => absurd used (by simp [unspent])).bind ?_
  intro _ _
  refine (assert_fails fun _ => by decide).bind ?_
  intro _ _
  have parser : Fails (· ≠ "Bitcoin txid already minted")
      (parseOutput args.rawTx args.voutIndex.toNat) := by
    rintro e failed rfl
    exact absurd (RawTransaction.parseOutput_fails _ _ _ failed) (by decide)
  apply parser.bind
  rintro ⟨amountSats, script⟩ _
  refine (assert_fails fun _ => by decide).bind ?_
  intro _ _
  have matcher : Fails (· ≠ "Bitcoin txid already minted")
      (scriptMatchesP2tr script (tapkeyBytes w.vault)) := by
    rintro e failed rfl
    exact absurd (RawTransaction.scriptMatches_fails _ _ _ _ _ _ failed) (by decide)
  apply matcher.bind
  intro paysCovenant _
  refine (assert_fails fun _ => by decide).bind ?_
  intro _ _
  have minter : Fails (· ≠ "Bitcoin txid already minted")
      (MockBtc.mint w.token w.address (toWei amountSats)) := by
    rintro e failed rfl
    exact absurd (MockBtc.InternalFunctions.mint_fails _ _ _ _ failed) (by decide)
  apply minter.bind
  intro token _
  exact fails_ok _

/-- The replay check answers exactly when the commitment is free, the header is
stored and the key of the digest is marked. -/
theorem deposit_replayed (sha : HashFunction) (w : World) (args : DepositArgs) :
    deposit sha w args = .error "Bitcoin txid already minted" ↔
      w.vault.commitments args.commitment = false ∧
      w.headers.stored args.blockHeight = true ∧
      w.vault.spentTxids (txidKey (args.txid sha)) = true := by
  cases used : w.vault.commitments args.commitment with
  | true => simp [deposit, assert, used]
  | false =>
      cases stored : w.headers.stored args.blockHeight with
      | false => simp [deposit, assert, used, HeaderStore.isHeaderStored, stored]
      | true =>
          cases spent : w.vault.spentTxids (txidKey (args.txid sha)) with
          | false =>
              simp only [Bool.false_eq_true, and_false, iff_false]
              intro failed
              exact deposit_not_replayed spent _ failed rfl
          | true =>
              rw [DepositArgs.txid] at spent
              simp [deposit, assert, used, HeaderStore.isHeaderStored, stored, spent,
                HeaderStore.getMerkleRoot]

/-- In every reachable state the replay rejection is justified by an equal digest
exactly when there is one, an earlier check answers first, or no accepted digest
overlaps the new one. -/
theorem replay_rejection_iff (sha : HashFunction) (genesis : Genesis) (calls : List Call)
    (caller : ContractAddress) (args : DepositArgs) :
    let accepted := deposits (history (execute sha) genesis.world calls)
    let w := run (execute sha) genesis.world calls
    (execute sha w (.deposit caller args) = .error "Bitcoin txid already minted" →
        ∃ earlier ∈ accepted, earlier.txid sha = args.txid sha) ↔
      (∃ earlier ∈ accepted, earlier.txid sha = args.txid sha) ∨
      (∃ earlier ∈ accepted, earlier.commitment = args.commitment) ∨
      w.headers.stored args.blockHeight = false ∨
      ∀ earlier ∈ accepted, ¬ Overlap (earlier.txid sha) (args.txid sha) := by
  intro accepted w
  have ledger := ledger_run sha genesis calls
  have answer : execute sha w (.deposit caller args) = .error "Bitcoin txid already minted" ↔
      w.vault.commitments args.commitment = false ∧ w.headers.stored args.blockHeight = true ∧
        ∃ earlier ∈ accepted, Overlap (earlier.txid sha) (args.txid sha) := by
    have marked := ledger.spent (txidKey (args.txid sha))
    simp only [txidKey_eq] at marked
    rw [execute, deposit_replayed, marked]
  have registered : w.vault.commitments args.commitment = false ↔
      ¬ ∃ earlier ∈ accepted, earlier.commitment = args.commitment := by
    rw [← ledger.commitments, Bool.not_eq_true]
  rw [answer, registered]
  constructor
  · intro justified
    by_cases used : ∃ earlier ∈ accepted, earlier.commitment = args.commitment
    · exact Or.inr (Or.inl used)
    · cases stored : w.headers.stored args.blockHeight with
      | false => exact Or.inr (Or.inr (Or.inl rfl))
      | true =>
          by_cases overlap : ∃ earlier ∈ accepted, Overlap (earlier.txid sha) (args.txid sha)
          · exact Or.inl (justified ⟨used, stored, overlap⟩)
          · refine Or.inr (Or.inr (Or.inr ?_))
            intro earlier member overlaps
            exact overlap ⟨earlier, member, overlaps⟩
  · rintro (same | used | missing | apart) ⟨fresh, stored, earlier, member, overlaps⟩
    · exact same
    · exact absurd used fresh
    · rw [missing] at stored
      cases stored
    · exact absurd overlaps (apart earlier member)

/-- Two digests with one storage key. -/
theorem txidKey_collides :
    txidKey ⟨0, 1, 0, 0, 0, 0, 0, 0⟩ = txidKey ⟨0, 0, 65536, 0, 0, 0, 0, 0⟩ ∧
      ¬ Function.Injective txidKey := by
  have collision : txidKey ⟨0, 1, 0, 0, 0, 0, 0, 0⟩ = txidKey ⟨0, 0, 65536, 0, 0, 0, 0, 0⟩ := rfl
  refine ⟨collision, ?_⟩
  intro injective
  exact absurd (injective collision) (by decide)

end PrivateBtc.Contracts.VaultRuns
