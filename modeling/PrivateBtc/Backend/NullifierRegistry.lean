/- PrivateBtc/Backend/NullifierRegistry
   digest: The nullifier of a closed vault is registered, as long as no route closes one itself. -/

import PrivateBtc.Backend.VaultWrites

set_option autoImplicit false
set_option relaxedAutoImplicit false

namespace PrivateBtc.Backend.NullifierRegistry

open Library Library.JsText Library.Outcome
open Authorizations Database Deposits Http Payments Server Starknet VaultWrites Withdrawals

/-- The registry holds the withdrawal that the vault records. -/
def Registered (db : Db) (row : VaultRow) : Prop :=
  ∃ used ∈ db.nullifiers.rows, row.nullifierHash = some used.nullifierHash ∧
    used.vaultId = row.id ∧ row.withdrawTxHash = some used.withdrawTxHash

def Coherent (db : Db) : Prop :=
  ∀ row ∈ db.vaults.rows, row.withdrawTxHash ≠ none ↔ Registered db row

/-- The Starknet call of a vault/withdraw handler yields no hash that the vault could store. -/
def Spared (s : State) : Label → Prop
  | .reply id (.rpc (.executed (.ok txHash))) _ =>
      ∀ asked request vault call,
        s.tasks id = some (asked, .withdraw (.executing request vault call)) →
          isTxHash txHash = false
  | _ => True

/-- A first attempt that waits in its race has no such hash either. -/
def Hashless (s : State) : Prop :=
  ∀ id request withdrawing payout,
    s.tasks id = some (request, .withdraw (.racing withdrawing payout)) →
      withdrawing.isRetry = false → isTxHash withdrawing.txHash = false

variable {env : Environment} {s s' : State} {label : Label}

theorem close_hash (hashless : Hashless s) (spared : Spared s label) {withdrawing : Withdrawing}
    (issues : Issues env s label (.close withdrawing)) : isTxHash withdrawing.txHash = false := by
  cases issues with
  | submitted waits => exact spared _ _ _ _ waits
  | raced waits first => exact hashless _ _ _ _ waits first
  | expired waits first => exact hashless _ _ _ _ waits first
  | spv _ _ _ _ _ told => split_ifs at told
  | relayed _ _ _ told => rcases told with told | told <;> cases told

theorem coherent_iff {db : Db} :
    Coherent db ↔ ∀ row ∈ db.vaults.rows, row.withdrawTxHash ≠ none → Registered db row := by
  constructor
  · intro coherent row member
    exact (coherent row member).mp
  · intro registered row member
    refine ⟨registered row member, ?_⟩
    rintro ⟨used, -, -, -, hash⟩ unset
    rw [unset] at hash
    cases hash

theorem Registered.mono {db db' : Db} {row row' : VaultRow} (registered : Registered db row)
    (grows : db.nullifiers.rows ⊆ db'.nullifiers.rows) (id : row'.id = row.id)
    (hash : row'.withdrawTxHash = row.withdrawTxHash)
    (nullifier : ∀ n, row.nullifierHash = some n → row'.nullifierHash = some n) :
    Registered db' row' := by
  obtain ⟨used, member, own, vault, withdrawn⟩ := registered
  exact ⟨used, grows member, nullifier _ own, vault.trans id.symm, hash.trans withdrawn⟩

/-- A statement other than a close registers what it writes. -/
theorem write_registered {db db' : Db} {write : VaultWrite} {row : VaultRow}
    (grows : db'.nullifiers.rows = db.nullifiers.rows ++ write.uses)
    (registered : row.withdrawTxHash ≠ none → Registered db row)
    (selected : write.selects row = true) (open_ : ∀ withdrawing, write ≠ .close withdrawing)
    (set : (write.change row).withdrawTxHash ≠ none) : Registered db' (write.change row) := by
  have more : db.nullifiers.rows ⊆ db'.nullifiers.rows := by
    rw [grows]
    exact List.subset_append_left _ _
  have kept : ∀ n other, row.nullifierHash = some n →
      row.nullifierHash.or other = some n := by
    intro n other own
    rw [own, Option.some_or]
  cases write with
  | insert new => cases selected
  | activate vaultId txHash => exact (registered set).mono more rfl rfl fun _ own => own
  | revive new => exact (registered set).mono more rfl rfl fun n own => kept n _ own
  | reviveRelayed relaying txHash =>
      exact (registered set).mono more rfl rfl fun n own => kept n _ own
  | refresh task status => exact (registered set).mono more rfl rfl fun _ own => own
  | close withdrawing => exact absurd rfl (open_ withdrawing)
  | spend txHash nullifierHash withdrawal usedAt =>
      have named : (row.id == withdrawal.vaultId) = true := selected
      refine ⟨⟨nullifierHash, withdrawal.vaultId, usedAt, txHash⟩, ?_, rfl,
        (beq_iff_eq.mp named).symm, rfl⟩
      rw [grows]
      exact List.mem_append_right _ List.mem_cons_self

theorem step_coherent (coherent : Coherent s.db) (hashless : Hashless s)
    (spared : Spared s label) (stepped : step env s label = some s') : Coherent s'.db := by
  rw [coherent_iff] at coherent ⊢
  cases step_wrote env stepped with
  | nothing vaults nullifiers =>
      intro row member set
      rw [vaults] at member
      obtain ⟨used, there, facts⟩ := coherent row member set
      exact ⟨used, by rwa [nullifiers], facts⟩
  | wrote write issues rows grows =>
      have more : s.db.nullifiers.rows ⊆ s'.db.nullifiers.rows := by
        rw [grows]
        exact List.subset_append_left _ _
      intro row' member' set
      have legible := s'.db.vaults.checked row' member'
      rw [rows] at member'
      rcases List.mem_append.mp member' with old | new
      · obtain ⟨row, member, rfl⟩ := List.mem_map.mp old
        unfold VaultWrite.written at set legible ⊢
        split_ifs at set legible ⊢ with selected
        · refine write_registered grows (coherent row member) selected ?_ set
          rintro withdrawing rfl
          -- the hash would have failed the check of the table
          have unfit := close_hash hashless spared issues
          have stored : isTxHashOrNull (some withdrawing.txHash) = true :=
            (Bool.and_eq_true_iff.mp legible).2
          rw [isTxHashOrNull, unfit] at stored
          cases stored
        · exact (coherent row member set).mono more rfl rfl fun _ own => own
      · cases write with
        | insert row =>
            rw [List.mem_singleton.mp new] at set
            exact absurd (insert_open env issues).2 set
        | _ => cases new

theorem step_hashless (hashless : Hashless s) (spared : Spared s label)
    (stepped : step env s label = some s') : Hashless s' := by
  intro id request withdrawing payout waits first
  cases step_arises env stepped waits with
  | kept held => exact hashless _ _ _ _ held first
  | begun next =>
      rw [begin_racing env next] at first
      cases first
  | resumed held went next =>
      cases resume_withdraw env went next with
      | racing _ payout _ was =>
          subst was
          exact hashless _ _ _ _ held first
      | submitted asked vault call txHash _ was answer =>
          subst was answer
          exact spared _ _ _ _ held
  | expired held went next =>
      obtain ⟨_, _, -, orphaned⟩ := expire_withdraw went next
      cases orphaned

/-- As long as no vault/withdraw handler is told the hash of its withdrawal, exactly the vaults
with a withdrawal stand in the registry with it. -/
theorem registry_coherent {start s : State} (starts : Starts start)
    (coherent : Coherent start.db) (run : Reaches env Spared start s) : Coherent s.db := by
  have both : Coherent s.db ∧ Hashless s := by
    let Kept (s : State) : Prop := Coherent s.db ∧ Hashless s
    have first : Kept start := by
      refine ⟨coherent, ?_⟩
      intro id request withdrawing payout waits
      rw [starts.tasks] at waits
      cases waits
    have kept : Kept s := by
      refine run.invariant first ?_
      rintro s₁ label s₂ ⟨coherent₁, hashless₁⟩ spared stepped
      exact ⟨step_coherent coherent₁ hashless₁ spared stepped,
        step_hashless hashless₁ spared stepped⟩
    exact kept
  exact both.1

section Registered

def sampleToken : ProofVerifier.ProofToken where
  vaultId := nilUuid
  commitment := ['0', 'x', '5']
  nullifierHash := some ['0', 'x', '7']
  ownerAddress := sampleHash '1'
  expiresAt := 1700000600

def depositedDb : Db :=
  ((GuardedRun.run (step covenantMode) (boot sampleGenesis) depositLabels).map State.db).getD
    Database.empty

/-- A server on the database of the sample deposit that has issued a proof token for it. -/
def verified : State := { boot sampleGenesis with db := depositedDb, issued := [sampleToken] }

/-- The withdrawal by proof: its transaction is confirmed and shows the nullifier. -/
def executeLabels : List Label :=
  [.request 0 (.executeWithdraw ⟨⟨applicationJson, false⟩, some nilUuid, some sampleToken,
      some (sampleHash '4')⟩) (sampleMoment ['e']),
    .reply 0 (.rpc (.receipt (.ok ⟨2, true, []⟩))) (sampleMoment ['e']),
    .reply 0 (.rpc (.receipt (.ok ⟨2, true, [⟨sampleHash '2', [], [['0', 'x', '7']]⟩]⟩)))
      (sampleMoment ['e'])]

/-- The vault that is closed by proof stands in the registry. -/
theorem execute_registered :
    ∃ s, Reaches covenantMode Spared verified s ∧
      s.db.vaults.rows.map VaultRow.withdrawTxHash = [some (sampleHash '4')] ∧ Coherent s.db := by
  have ran : (GuardedRun.run (step covenantMode) verified executeLabels).map
      (fun s => s.db.vaults.rows.map VaultRow.withdrawTxHash) = some [some (sampleHash '4')] := by
    decide +kernel
  have open_ : depositedDb.vaults.rows.map VaultRow.withdrawTxHash = [none] := by decide +kernel
  simp only [Option.map_eq_some_iff] at ran
  obtain ⟨s, ran, hashes⟩ := ran
  have coherent : Coherent verified.db := by
    rw [coherent_iff]
    intro row member set
    have listed : row.withdrawTxHash ∈ depositedDb.vaults.rows.map VaultRow.withdrawTxHash :=
      List.mem_map_of_mem member
    rw [open_, List.mem_singleton] at listed
    exact absurd listed set
  have spared : ∀ label ∈ executeLabels, ∀ s, Spared s label := by
    intro label member s
    simp only [executeLabels, List.mem_cons, List.not_mem_nil, or_false] at member
    rcases member with rfl | rfl | rfl <;> trivial
  have run : Reaches covenantMode Spared verified s :=
    GuardedRun.Reaches.start.of_run spared ran
  exact ⟨s, run, hashes, registry_coherent ⟨fun _ => rfl, rfl⟩ coherent run⟩

end Registered

section Unregistered

/-- The route closes the vault and registers nothing. -/
theorem withdraw_unregistered :
    ∃ s, Reaches covenantMode (fun _ _ => True) (boot sampleGenesis) s ∧
      s.tasks 0 = none ∧ s.tasks 1 = none ∧ ¬ Coherent s.db := by
  have ran : (GuardedRun.run (step covenantMode) (boot sampleGenesis) unpaidLabels).map
      (fun s => (s.db.vaults.rows.map VaultRow.withdrawTxHash, s.db.nullifiers.rows.length,
        (s.tasks 0).isNone, (s.tasks 1).isNone)) =
      some ([some (sampleHash '4')], 0, true, true) := by decide +kernel
  simp only [Option.map_eq_some_iff, Prod.mk.injEq, Option.isNone_iff_eq_none] at ran
  obtain ⟨s, ran, hashes, unused, first, second⟩ := ran
  refine ⟨s, GuardedRun.Reaches.start.of_run (fun _ _ _ => trivial) ran, first, second, ?_⟩
  intro coherent
  obtain ⟨row, member, set⟩ : ∃ row ∈ s.db.vaults.rows,
      row.withdrawTxHash = some (sampleHash '4') := by
    rw [← List.mem_map, hashes]
    exact List.mem_cons_self
  obtain ⟨used, there, -⟩ := (coherent row member).mp (by simp [set])
  rw [List.eq_nil_of_length_eq_zero unused] at there
  cases there

end Unregistered

end PrivateBtc.Backend.NullifierRegistry
