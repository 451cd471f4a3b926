/- PrivateBtc/Contracts/SingleUse
   digest: Commitments, transactions and nullifiers serve once; a proof binds no recipient. -/

import PrivateBtc.Contracts.VaultRuns

set_option autoImplicit false
set_option relaxedAutoImplicit false

namespace PrivateBtc.Contracts.SingleUse

open Library Library.Outcome Library.Transactional Corelib Vault VaultRuns
open Hashing (HashFunction)
open MockBtc (share)
open RawTransaction (parseOutput)

/-- An accepted deposit brings the parsed amount to the vault and to the supply. -/
theorem deposit_mints {sha : HashFunction} {w w' : World} {args : DepositArgs}
    (accepted : deposit sha w args = .ok w') :
    (∃ script, parseOutput args.rawTx args.voutIndex.toNat = .ok (args.amountSats, script)) ∧
      (w'.token.balances w.address).val =
        (w.token.balances w.address).val + 10 ^ 10 * args.amountSats ∧
      w'.token.totalSupply.val = w.token.totalSupply.val + 10 ^ 10 * args.amountSats := by
  obtain ⟨script, token, -, -, -, -, parsed, -, -, minted, rfl⟩ := deposit_ok accepted
  obtain ⟨-, supply, balances, -⟩ := MockBtc.InternalFunctions.mint_ok minted
  have wei := toWei_val (RawTransaction.parseOutput_amount_lt parsed)
  have own := balances w.address
  rw [share, if_pos rfl, wei] at own
  rw [wei] at supply
  exact ⟨⟨script, parsed⟩, own, supply⟩

/-- The ledger, and what no two accepted deposits share. -/
structure Single (sha : HashFunction) (genesis : Genesis) (past : Past) (w : World) : Prop where
  ledger : Ledger sha genesis past w
  commitments : ((deposits past).map DepositArgs.commitment).Nodup
  digests : ((deposits past).map (DepositArgs.txid sha)).Nodup
  accepted : ∀ entry ∈ past, entry.1.address = genesis.world.address ∧
    ∃ after, execute sha entry.1 entry.2 = .ok after

private theorem single_deposits {sha : HashFunction} {genesis : Genesis} {past : Past}
    {w w' : World} {call : Call} (single : Single sha genesis past w)
    (accepted : execute sha w call = .ok w') :
    ((deposits (past ++ [(w, call)])).map DepositArgs.commitment).Nodup ∧
      ((deposits (past ++ [(w, call)])).map (DepositArgs.txid sha)).Nodup := by
  cases made : depositArgs call with
  | none =>
      rw [deposits_snoc, made, Option.toList_none, List.append_nil]
      exact ⟨single.commitments, single.digests⟩
  | some args =>
      have deposits_eq := deposits_snoc past w call
      rw [made, Option.toList_some] at deposits_eq
      cases call with
      | deposit caller args' =>
          cases made
          obtain ⟨_, _, fresh, -, unspent, -⟩ := deposit_ok accepted
          rw [deposits_eq]
          refine ⟨nodup_map_snoc single.commitments ?_, nodup_map_snoc single.digests ?_⟩
          · intro earlier member same
            have used := (single.ledger.commitments args.commitment).mpr ⟨earlier, member, same⟩
            rw [fresh] at used
            cases used
          · intro earlier member same
            have spent := (single.ledger.spent (txidKey (args.txid sha))).mpr
              ⟨earlier, member, congrArg txidKey same⟩
            rw [unspent] at spent
            cases spent
      | _ => cases made

theorem single_step {sha : HashFunction} {genesis : Genesis} {past : Past} {w w' : World}
    {call : Call} (single : Single sha genesis past w) (accepted : execute sha w call = .ok w') :
    Single sha genesis (past ++ [(w, call)]) w' := by
  obtain ⟨commitments, digests⟩ := single_deposits single accepted
  refine ⟨ledger_step single.ledger accepted, commitments, digests, ?_⟩
  intro entry member
  rcases List.mem_append.mp member with old | new
  · exact single.accepted entry old
  · rw [List.mem_singleton.mp new]
    exact ⟨single.ledger.address, w', accepted⟩

theorem single_run (sha : HashFunction) (genesis : Genesis) (calls : List Call) :
    Single sha genesis (history (execute sha) genesis.world calls)
      (run (execute sha) genesis.world calls) :=
  run_history_invariant (execute sha) (fun _ => True) (Single sha genesis)
    (fun _ _ _ _ single _ accepted => single_step single accepted) [] genesis.world
    ⟨ledger_genesis sha genesis, List.nodup_nil, List.nodup_nil, by simp⟩ calls
    fun _ _ => trivial

/-- Over every run of calls by arbitrary accounts: commitments, digests and nullifiers
serve once, a deposit mints the parsed amount to the vault, and exactly the commitments
of the accepted deposits are registered. -/
theorem accepted_once (sha : HashFunction) (genesis : Genesis) (calls : List Call) :
    let past := history (execute sha) genesis.world calls
    let vault := genesis.world.address
    ((deposits past).map DepositArgs.commitment).Nodup ∧
    ((deposits past).map (DepositArgs.txid sha)).Nodup ∧
    ((withdrawals past).map WithdrawArgs.nullifier).Nodup ∧
    (∀ before caller args, (before, .deposit caller args) ∈ past →
      ∃ after script, execute sha before (.deposit caller args) = .ok after ∧
        parseOutput args.rawTx args.voutIndex.toNat = .ok (args.amountSats, script) ∧
        (after.token.balances vault).val =
          (before.token.balances vault).val + 10 ^ 10 * args.amountSats ∧
        after.token.totalSupply.val =
          before.token.totalSupply.val + 10 ^ 10 * args.amountSats) ∧
    ∀ commitment,
      isCommitmentRegistered (run (execute sha) genesis.world calls) commitment = true ↔
        ∃ args ∈ deposits past, args.commitment = commitment := by
  intro past vault
  have single := single_run sha genesis calls
  refine ⟨single.commitments, single.digests, single.ledger.distinct, ?_,
    single.ledger.commitments⟩
  intro before caller args member
  obtain ⟨address, after, accepted⟩ := single.accepted _ member
  obtain ⟨⟨script, parsed⟩, balance, supply⟩ := deposit_mints accepted
  rw [address] at balance
  exact ⟨after, script, accepted, parsed, balance, supply⟩

/-- A withdrawal succeeds exactly when its nullifier is fresh, its proof is not empty and
the token can move the amount. -/
theorem withdraw_accepted_iff (w : World) (args : WithdrawArgs) :
    (∃ w', withdraw w args = .ok w') ↔
      w.vault.nullifiers args.nullifier = false ∧ args.proof ≠ [] ∧
      args.amount ≤ w.token.balances w.address ∧
      ∃ token, MockBtc.InternalFunctions.transfer w.token w.address args.recipient args.amount =
        .ok token := by
  constructor
  · rintro ⟨w', accepted⟩
    obtain ⟨token, fresh, nonempty, enough, moved, -⟩ := withdraw_ok accepted
    exact ⟨fresh, nonempty, enough, token, moved⟩
  · rintro ⟨fresh, nonempty, enough, token, moved⟩
    have positive : 0 < args.proof.length := List.length_pos_iff.mpr nonempty
    exact ⟨withdrawn w args token, by
      simp [withdraw, withdrawn, assert, fresh, positive, enough, moved, MockBtc.balanceOf,
        MockBtc.transfer]⟩

private theorem nullifier_kept {sha : HashFunction} {nullifier : Felt} {w w' : World} {call : Call}
    (used : w.vault.nullifiers nullifier = true) (accepted : execute sha w call = .ok w') :
    w'.vault.nullifiers nullifier = true := by
  rcases execute_ok accepted with ⟨caller, args, -, accepted⟩ | ⟨caller, args, -, accepted⟩ |
    ⟨-, -, -, vault, -⟩
  · obtain ⟨_, _, -, -, -, -, -, -, -, -, rfl⟩ := deposit_ok accepted
    exact used
  · obtain ⟨_, -, -, -, -, rfl⟩ := withdraw_ok accepted
    by_cases same : nullifier = args.nullifier
    · simp [withdrawn, same]
    · simpa [withdrawn, same] using used
  · rw [vault]
    exact used

/-- Whatever is called after a withdrawal, its nullifier admits no other. -/
theorem withdraw_spent {sha : HashFunction} {w w' : World} {args : WithdrawArgs}
    (accepted : withdraw w args = .ok w') (calls : List Call) (copy : WithdrawArgs)
    (same : copy.nullifier = args.nullifier) :
    withdraw (run (execute sha) w' calls) copy = .error "Nullifier already used" := by
  obtain ⟨token, -, -, -, -, rfl⟩ := withdraw_ok accepted
  have used := run_history_invariant (execute sha) (fun _ => True)
    (fun _ later => later.vault.nullifiers args.nullifier = true)
    (fun _ _ _ _ used _ accepted => nullifier_kept used accepted) []
    (withdrawn w args token) (by simp [withdrawn]) calls fun _ _ => trivial
  rw [← same] at used
  simp [withdraw, assert, used]

/-- Before a withdrawal is included, a call with its nullifier and its proof succeeds for
every recipient and amount that the token can move; afterwards no such call succeeds. -/
theorem copied_proof (sha : HashFunction) {w w' : World} {args : WithdrawArgs}
    (copy : WithdrawArgs) (accepted : withdraw w args = .ok w')
    (nullifier : copy.nullifier = args.nullifier) (proof : copy.proof = args.proof) :
    ((∃ w'', withdraw w copy = .ok w'') ↔
      copy.recipient ≠ 0 ∧ copy.amount ≤ w.token.balances w.address ∧
        (copy.recipient = w.address ∨
          (w.token.balances copy.recipient).val + copy.amount.val < 2 ^ 256)) ∧
    ∀ calls : List Call,
      withdraw (run (execute sha) w' calls) copy = .error "Nullifier already used" := by
  obtain ⟨fresh, nonempty, -, paid⟩ := (withdraw_accepted_iff w args).mp ⟨w', accepted⟩
  obtain ⟨deployed, -⟩ := (MockBtc.InternalFunctions.transfer_accepted_iff ..).mp paid
  refine ⟨?_, fun calls => withdraw_spent accepted calls copy nullifier⟩
  rw [withdraw_accepted_iff, MockBtc.InternalFunctions.transfer_accepted_iff, nullifier, proof]
  constructor
  · rintro ⟨-, -, enough, -, exists_, -, room⟩
    exact ⟨exists_, enough, room⟩
  · rintro ⟨exists_, enough, room⟩
    exact ⟨fresh, nonempty, enough, deployed, exists_, enough, room⟩

/-- Account 13 has sent one token to the vault. -/
def fundedWorld : World :=
  run (execute Sha256.sha256) robbedGenesis.world [.transfer 13 11 1000000000000000000]

/-- One nullifier and one proof: account 14 is paid the whole token, or account 15 half of it. -/
theorem redirected :
    ¬ ∀ (w : World) (args copy : WithdrawArgs), copy.nullifier = args.nullifier →
      copy.proof = args.proof →
      (copy.recipient, copy.amount) ≠ (args.recipient, args.amount) →
      (∃ w', withdraw w args = .ok w') → ¬ ∃ w', withdraw w copy = .ok w' := by
  intro bound
  refine bound fundedWorld ⟨7, [0], 14, 1000000000000000000⟩ ⟨7, [0], 15, 500000000000000000⟩
    rfl rfl (by decide) ⟨_, rfl⟩ ⟨_, rfl⟩

theorem copied_proof_funded :
    ∃ w'', withdraw fundedWorld ⟨7, [0], 15, 500000000000000000⟩ = .ok w'' := by
  have first : withdraw fundedWorld ⟨7, [0], 14, 1000000000000000000⟩ = .ok _ := rfl
  obtain ⟨succeeds, -⟩ :=
    copied_proof Sha256.sha256 ⟨7, [0], 15, 500000000000000000⟩ first rfl rfl
  exact succeeds.mpr ⟨by decide, by decide, Or.inr (by decide)⟩

end PrivateBtc.Contracts.SingleUse
