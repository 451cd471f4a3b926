/- PrivateBtc/Contracts/Supply
   digest: The supply over whole runs: what mints it, and that withdrawals leave it alone. -/

import PrivateBtc.Contracts.SingleUse

set_option autoImplicit false
set_option relaxedAutoImplicit false

namespace PrivateBtc.Contracts.Supply

open Library Library.Outcome Library.Transactional Corelib Vault VaultRuns
open Hashing (HashFunction)

/-- What an account makes the token mint, without the vault. -/
def mintedByCall : Call → Nat
  | .mint _ _ amount => amount.val
  | _ => 0

def mintedOutside (past : Past) : Nat := (past.map fun entry => mintedByCall entry.2).sum

def withdrawnWei (past : Past) : Nat := ((withdrawals past).map fun args => args.amount.val).sum

theorem depositedSats_snoc (past : Past) (w : World) (call : Call) :
    depositedSats (past ++ [(w, call)]) =
      depositedSats past + (depositArgs call).elim 0 DepositArgs.amountSats := by
  rw [depositedSats, deposits_snoc, List.map_append, List.sum_append, ← depositedSats]
  cases depositArgs call <;> simp

/-- Only a deposit and a mint change the supply. -/
theorem execute_supply {sha : HashFunction} {w w' : World} {call : Call}
    (accepted : execute sha w call = .ok w') :
    w'.token.totalSupply.val = w.token.totalSupply.val +
      10 ^ 10 * (depositArgs call).elim 0 DepositArgs.amountSats + mintedByCall call := by
  cases call with
  | deposit caller args => exact (SingleUse.deposit_mints accepted).2.2
  | withdraw caller args =>
      obtain ⟨token, -, -, -, moved, rfl⟩ := withdraw_ok accepted
      exact congrArg Fin.val (MockBtc.InternalFunctions.transfer_ok moved).2.2.2.2.1
  | storeHeader caller height merkleRoot =>
      simp only [execute, bind_eq_ok, pure_eq_ok, Except.ok.injEq] at accepted
      obtain ⟨headers, -, rfl⟩ := accepted
      rfl
  | transfer caller recipient amount =>
      simp only [execute, MockBtc.transfer, bind_eq_ok, pure_eq_ok, Except.ok.injEq] at accepted
      obtain ⟨_, ⟨token, moved, rfl⟩, rfl⟩ := accepted
      exact congrArg Fin.val (MockBtc.InternalFunctions.transfer_ok moved).2.2.2.2.1
  | approve caller spender amount =>
      simp only [execute, MockBtc.approve, bind_eq_ok, pure_eq_ok, Except.ok.injEq] at accepted
      obtain ⟨_, ⟨token, approved, rfl⟩, rfl⟩ := accepted
      exact congrArg Fin.val (MockBtc.InternalFunctions.approve_ok approved).2.2.2.1
  | transferFrom caller sender recipient amount =>
      simp only [execute, MockBtc.transferFrom, bind_eq_ok, pure_eq_ok, Except.ok.injEq] at accepted
      obtain ⟨_, ⟨spent, spends, token, moved, rfl⟩, rfl⟩ := accepted
      have supply := (MockBtc.InternalFunctions.transfer_ok moved).2.2.2.2.1
      rw [(MockBtc.InternalFunctions.spendAllowance_ok spends).2.1] at supply
      exact congrArg Fin.val supply
  | mint caller recipient amount =>
      simp only [execute, MockBtc.mint, bind_eq_ok, pure_eq_ok, Except.ok.injEq] at accepted
      obtain ⟨token, minted, rfl⟩ := accepted
      exact (MockBtc.InternalFunctions.mint_ok minted).2.1

/-- The supply, told by the accepted calls. -/
def Backed (past : Past) (w : World) : Prop :=
  w.token.totalSupply.val =
    MockBtc.initialMint.val + 10 ^ 10 * depositedSats past + mintedOutside past

theorem backed_step {sha : HashFunction} {past : Past} {w w' : World} {call : Call}
    (backed : Backed past w) (accepted : execute sha w call = .ok w') :
    Backed (past ++ [(w, call)]) w' := by
  have supply := execute_supply accepted
  have outside : mintedOutside (past ++ [(w, call)]) = mintedOutside past + mintedByCall call := by
    simp [mintedOutside]
  unfold Backed at backed ⊢
  rw [depositedSats_snoc, outside]
  omega

theorem backed_genesis (genesis : Genesis) : Backed [] genesis.world := by
  have deployed := genesis.deployed
  simp only [deploy, bind_eq_ok, pure_eq_ok, Except.ok.injEq] at deployed
  obtain ⟨token, built, start⟩ := deployed
  have supply := (MockBtc.InternalFunctions.mint_ok built).2.1
  have same : genesis.world.token = token := (congrArg World.token start).symm
  rw [Backed, same, supply]
  show 0 + MockBtc.initialMint.val = MockBtc.initialMint.val + 10 ^ 10 * 0 + 0
  omega

theorem backed_run (sha : HashFunction) (genesis : Genesis) (calls : List Call) :
    Backed (history (execute sha) genesis.world calls)
      (run (execute sha) genesis.world calls) :=
  run_history_invariant (execute sha) (fun _ => True) Backed
    (fun _ _ _ _ backed _ accepted => backed_step backed accepted) [] genesis.world
    (backed_genesis genesis) calls fun _ _ => trivial

/-- After every run the supply is backed by deposits exactly when no account has minted
anything itself. -/
theorem mint_authority_iff (sha : HashFunction) (genesis : Genesis) (calls : List Call) :
    let past := history (execute sha) genesis.world calls
    (run (execute sha) genesis.world calls).token.totalSupply.val - MockBtc.initialMint.val ≤
        10 ^ 10 * depositedSats past ↔
      ∀ entry ∈ past, ∀ caller recipient amount,
        entry.2 = .mint caller recipient amount → amount = 0 := by
  intro past
  have backed : Backed past _ := backed_run sha genesis calls
  have nothing : mintedOutside past = 0 ↔ ∀ entry ∈ past, ∀ caller recipient amount,
      entry.2 = .mint caller recipient amount → amount = 0 := by
    rw [mintedOutside, List.sum_eq_zero_iff_forall_eq_nat]
    constructor
    · intro zero entry member caller recipient amount called
      have part := zero _ (List.mem_map_of_mem member)
      rw [called] at part
      exact Fin.ext part
    · rintro zero minted member
      obtain ⟨⟨w, call⟩, entered, rfl⟩ := List.mem_map.mp member
      cases call with
      | mint caller recipient amount =>
          exact congrArg Fin.val (zero _ entered caller recipient amount rfl)
      | _ => rfl
  rw [← nothing]
  unfold Backed at backed
  omega

/-- Account 14 makes itself a token; there is no deposit. -/
theorem faucet_unbacked :
    ¬ ((run (execute Sha256.sha256) robbedGenesis.world
          [.mint 14 14 1000000000000000000]).token.totalSupply.val - MockBtc.initialMint.val ≤
        10 ^ 10 * depositedSats (history (execute Sha256.sha256) robbedGenesis.world
          [.mint 14 14 1000000000000000000])) := by
  decide

/-- When only the vault mints, a run keeps the peg exactly when its withdrawals move nothing. -/
theorem peg_iff (sha : HashFunction) (genesis : Genesis) (calls : List Call)
    (vaultOnly : ∀ caller recipient amount, Call.mint caller recipient amount ∉ calls) :
    let past := history (execute sha) genesis.world calls
    ((run (execute sha) genesis.world calls).token.totalSupply.val : Int) =
        MockBtc.initialMint.val + 10 ^ 10 * depositedSats past - withdrawnWei past ↔
      ∀ args ∈ withdrawals past, args.amount = 0 := by
  intro past
  have backed : Backed past _ := backed_run sha genesis calls
  have outside : mintedOutside past = 0 := by
    rw [mintedOutside, List.sum_eq_zero_iff_forall_eq_nat]
    rintro minted member
    obtain ⟨⟨w, call⟩, entered, rfl⟩ := List.mem_map.mp member
    have called := history_mem (execute sha) entered
    cases call with
    | mint caller recipient amount => exact absurd called (vaultOnly caller recipient amount)
    | _ => rfl
  have nothing : withdrawnWei past = 0 ↔ ∀ args ∈ withdrawals past, args.amount = 0 := by
    rw [withdrawnWei, List.sum_eq_zero_iff_forall_eq_nat]
    constructor
    · intro zero args member
      exact Fin.ext (zero _ (List.mem_map_of_mem member))
    · rintro zero amount member
      obtain ⟨args, withdrawn, rfl⟩ := List.mem_map.mp member
      exact congrArg Fin.val (zero args withdrawn)
  rw [← nothing]
  unfold Backed at backed
  omega

/-- A token is sent to the vault and withdrawn from it; none is destroyed. -/
theorem robbery_keeps_supply :
    ¬ (((run (execute Sha256.sha256) robbedGenesis.world robbery).token.totalSupply.val : Int) =
      MockBtc.initialMint.val +
        10 ^ 10 * depositedSats (history (execute Sha256.sha256) robbedGenesis.world robbery) -
        withdrawnWei (history (execute Sha256.sha256) robbedGenesis.world robbery)) := by
  decide

theorem peg_iff_idle :
    ((run (execute Sha256.sha256) robbedGenesis.world
        [.withdraw 14 ⟨7, [0], 14, 0⟩]).token.totalSupply.val : Int) =
      MockBtc.initialMint.val +
        10 ^ 10 * depositedSats (history (execute Sha256.sha256) robbedGenesis.world
          [.withdraw 14 ⟨7, [0], 14, 0⟩]) -
        withdrawnWei (history (execute Sha256.sha256) robbedGenesis.world
          [.withdraw 14 ⟨7, [0], 14, 0⟩]) :=
  (peg_iff Sha256.sha256 robbedGenesis [.withdraw 14 ⟨7, [0], 14, 0⟩] (by simp)).mpr (by decide)

end PrivateBtc.Contracts.Supply
