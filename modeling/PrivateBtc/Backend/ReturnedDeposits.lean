/- PrivateBtc/Backend/ReturnedDeposits
   digest: What an acknowledged deposit was is what its withdrawal later pays, to the satoshi. -/

import PrivateBtc.Backend.Denominations
import PrivateBtc.Backend.PaidWithdrawals
import PrivateBtc.Backend.PayoutFidelity

set_option autoImplicit false
set_option relaxedAutoImplicit false

namespace PrivateBtc.Backend.ReturnedDeposits

open Library Library.JsText
open AcknowledgedDeposits (Deposit)
open Authorizations CryptoService Database Deposits Http PaidWithdrawals Payments PayoutFidelity
open Polls Server Starknet Withdrawals
open StoredNullifiers (Consistent)
open Denominations (ALLOWED_DENOMINATIONS_SATS Denomination)
open WithdrawGate (WithdrawBody WithdrawCall withdrawGate)

/-- The step in which spv-deposit acknowledges the deposit, on the receipt of its transaction. -/
def Acknowledges (env : Environment) (deposit : Deposit) (s s' : State) : Prop :=
  ∃ id request attempt body reply receipt moment vaultId,
    s.tasks id = some (request, .deposit (.waiting deposit.txHash attempt (.spv body))) ∧
    getTransactionReceipt deposit.txHash reply = .ok receipt ∧ receipt.succeeded = true ∧
    body.stores = some (vaultId, deposit.nullifierHash) ∧
    body.commitment = deposit.commitment ∧ amountInWei body.amount = some deposit.amount ∧
    AcknowledgedDeposits.Fresh s.db vaultId deposit ∧
    step env s (.reply id (.rpc (.receipt reply)) moment) = some s'

section Storing

variable {env : Environment} {deposit : Deposit} {s s' : State}

/-- The vault that holds the deposit. -/
def Holds (env : Environment) (deposit : Deposit) (db : Db) : Prop :=
  ∃ row ∈ db.vaults.rows, row.nullifierHash = some deposit.nullifierHash ∧
    decryptAmount env.crypto row.encryptedAmount row.salt = .ok deposit.amount

/-- A deposit that is new in all its keys is stored when it is acknowledged. -/
theorem acknowledges_holds (acknowledges : Acknowledges env deposit s s') :
    Holds env deposit s'.db := by
  obtain ⟨id, request, attempt, body, reply, receipt, moment, vaultId, waits, shown, succeeded,
    stores, commitment, amount, fresh, stepped⟩ := acknowledges
  have missing : vaultById s.db vaultId = none := by
    cases found : vaultById s.db vaultId with
    | none => rfl
    | some row =>
        obtain ⟨member, named⟩ := Table.find?_some found
        exact absurd (beq_iff_eq.mp named) (fresh.2 row member).1
  let row := spvRow env.toConfig moment body vaultId deposit.nullifierHash deposit.txHash
    deposit.amount
  have accepted : ∃ db', storeSpv row s.db = .ok db' := by
    rw [AcknowledgedDeposits.insert_accepted_iff env.toConfig moment body deposit.nullifierHash
      deposit.txHash deposit.amount missing, commitment]
    exact fresh
  obtain ⟨db', stored⟩ := accepted
  have confirmed : waitOnce deposit.txHash attempt reply = .confirmed receipt := by
    rw [waitOnce, shown]
    exact if_pos succeeded
  have turn : resumeDeposit env.toConfig moment s.db
      (.waiting deposit.txHash attempt (.spv body)) (.receipt reply) =
      some (.reply db' (.deposited deposit.txHash body.bitcoinTxid body.vaultId)) := by
    rw [resumeDeposit, afterReceipt, confirmed]
    simp only [afterConfirmed, afterSpv, stores, amount]
    rw [orLogged, show storeSpv _ s.db = _ from stored]
  have held : s'.db = db' := by
    simp only [step, waits, Option.bind_eq_bind, Option.bind_some, resume, turn,
      Option.map_some, Option.pure_def, Option.some.injEq] at stepped
    rw [← stepped]
    rfl
  have rows : db'.vaults.rows = s.db.vaults.rows ++ [row] := by
    rcases (storeSpv_ok stored).1 with ⟨-, rows⟩ | ⟨known, -⟩
    · exact rows
    · rw [show row.id = vaultId from rfl, missing] at known
      cases known
  refine ⟨row, ?_, rfl, decryptAmount_encryptAmount env.crypto _ deposit.amount _⟩
  rw [held, rows]
  exact List.mem_append_right _ List.mem_cons_self

/-- No later step changes what the vault holds. -/
theorem Holds.run {labels : List Label} (consistent : Consistent s)
    (holds : Holds env deposit s.db) (ran : GuardedRun.run (step env) s labels = some s') :
    Holds env deposit s'.db := by
  obtain ⟨row, member, nullifier, read⟩ := holds
  obtain ⟨row', member', kept⟩ := StoredNullifiers.run_kept consistent member
    (GuardedRun.Reaches.start.of_run (fun _ _ _ => trivial) ran)
  refine ⟨row', member', kept.nullifier _ nullifier, ?_⟩
  rw [kept.same.encryptedAmount, kept.same.salt, read]

/-- The vault that the withdraw route finds by the nullifier is the one of the deposit. -/
theorem Holds.found {vault : VaultRow} {db : Db} (holds : Holds env deposit db)
    (found : vaultByNullifier db deposit.nullifierHash = some vault) :
    decryptAmount env.crypto vault.encryptedAmount vault.salt = .ok deposit.amount := by
  obtain ⟨row, member, nullifier, read⟩ := holds
  obtain ⟨there, named⟩ := Table.find?_some found
  rw [beq_iff_eq] at named
  have same : row = vault := db.vaults.eq_of_clash member there (by
    simp [vaultSchema, sameValue, nullifier, named])
  rw [← same, read]

end Storing

section Runs

variable {env : Environment} {s s' : State}

/-- What a run from the start keeps, whatever its answers were. -/
def Traced (env : Environment) (s : State) : Prop := ∃ labels, Sound env labels s

theorem Traced.run {labels : List Label} (traced : Traced env s)
    (ran : GuardedRun.run (step env) s labels = some s') : Traced env s' := by
  obtain ⟨before, sound⟩ := traced
  exact ⟨_, GuardedRun.run_traces (fun _ _ _ _ => step_sound env) ran sound⟩

/-- Polls one after the other are a run. -/
theorem pollAll_traced {id : Nat} {polls : List Poll} (traced : Traced env s)
    (polled : pollAll env id s polls = some s') : Traced env s' := by
  induction polls generalizing s with
  | nil =>
      cases polled
      exact traced
  | cons poll polls ih =>
      rw [pollAll, List.foldlM_cons] at polled
      obtain ⟨s₁, first, rest⟩ := Option.bind_eq_some_iff.mp polled
      exact ih (traced.run first) rest

/-- The payments for an authorization all pay what it was created for. -/
theorem Traced.pays {auth : WithdrawalAuthorization} {paid : Option Text}
    (traced : Traced env s) (recorded : Recorded env.toConfig auth paid s.db) :
    ∀ broadcast ∈ s.broadcasts, broadcast.authId = auth.id →
      ∃ utxos feeRate, PaysGrant env.toConfig utxos feeRate (granted auth) broadcast.payment := by
  obtain ⟨labels, sound⟩ := traced
  obtain ⟨row, found, same, -⟩ := recorded
  intro broadcast member own
  obtain ⟨grant, known, utxos, feeRate, -, pays⟩ := sound.paid broadcast member
  rw [own, grantOf, found, Option.map_some, Option.some.injEq, same] at known
  exact ⟨utxos, feeRate, known ▸ pays⟩

end Runs

/-- The conversion to satoshis is exact on the allowed denominations. -/
theorem actualSats_denomination {wei : Int} (denomination : Denomination wei) :
    10000000000 * actualSats wei = wei := by
  obtain ⟨sats, allowed, rfl⟩ := denomination
  simp only [ALLOWED_DENOMINATIONS_SATS, List.mem_cons, List.not_mem_nil, or_false] at allowed
  rcases allowed with rfl | rfl | rfl | rfl <;> decide +kernel

/-- A deposit that the server acknowledges in any run is returned: however the run goes on, once a
withdrawal under its nullifier is admitted and its Starknet call answered, the authorization is for
the deposit's amount, it is completed by the first attempt or poll that can pay it, and each payment
for it pays that amount to the requested address. -/
theorem deposit_returned {env : Environment} {genesis : Contracts.Vault.Genesis}
    {deposit : Deposit} {before between : List Label} {s₀ s₁ s₂ : State} {id : Nat} {burn : Burn}
    {body : WithdrawBody} {call : WithdrawCall} (attempt : Attempt) (askedAt : Moment)
    (first : GuardedRun.run (step env) (boot genesis) before = some s₀)
    (acknowledges : Acknowledges env deposit s₀ s₁)
    (second : GuardedRun.run (step env) s₁ between = some s₂)
    (idle : s₂.tasks id = none)
    (gate : withdrawGate env.senderAddress env.crypto s₂.db body =
      .ok (.submit burn.request burn.vault call))
    (named : burn.request.nullifierHash = deposit.nullifierHash)
    (read : decryptAmount env.crypto burn.vault.encryptedAmount burn.vault.salt =
      .ok burn.amountSats)
    (fresh : PaidWithdrawals.Fresh s₂.db burn (closedAt env.toConfig attempt burn)) :
    ∃ s₃, GuardedRun.run (step env) s₂
        (PaidWithdrawals.withdrawLabels env.toConfig attempt burn body askedAt id) = some s₃ ∧
      ∀ polls, ∃ s₄, pollAll env id s₃ polls = some s₄ ∧
        Recorded env.toConfig burn.auth
          ((paidNow env.toConfig attempt burn).or
            (if env.useCovenants then paidLater env.toConfig burn.auth polls else none)) s₄.db ∧
        burn.amountSats = deposit.amount ∧
        (Denomination deposit.amount → 10000000000 * burn.auth.amountSats = deposit.amount) ∧
        ∀ broadcast ∈ s₄.broadcasts, broadcast.authId = burn.auth.id →
          ∃ utxos feeRate, PaysGrant env.toConfig utxos feeRate (granted burn.auth)
            broadcast.payment := by
  obtain ⟨-, admitted⟩ := (WithdrawGate.withdrawGate_submit _ _ _ _ _ _).mp ⟨call, gate⟩
  have start : Traced env (boot genesis) := ⟨[], boot_sound env genesis⟩
  have stepped : ∃ label, step env s₀ label = some s₁ := by
    obtain ⟨_, _, _, _, _, _, _, _, -, -, -, -, -, -, -, went⟩ := acknowledges
    exact ⟨_, went⟩
  obtain ⟨label, stepped⟩ := stepped
  have traced₁ : Traced env s₁ := by
    obtain ⟨labels, sound⟩ := start.run first
    exact ⟨_, step_sound env sound stepped⟩
  have consistent : Consistent s₁ := traced₁.choose_spec.consistent
  have holds : Holds env deposit s₂.db := (acknowledges_holds acknowledges).run consistent second
  have amount : burn.amountSats = deposit.amount := by
    have held := holds.found (named ▸ admitted.found)
    rw [read, Except.ok.injEq] at held
    exact held
  obtain ⟨s₃, ran, idle', -, -, -, withdrawn⟩ :=
    withdrawal_withdrawn attempt askedAt idle gate read fresh
  have traced₃ : Traced env s₃ := (traced₁.run second).run ran
  refine ⟨s₃, ran, fun polls => ?_⟩
  obtain ⟨s₄, polled, -, -, recorded⟩ := pollAll_recorded polls idle' withdrawn.recorded
  refine ⟨s₄, polled, recorded, amount, fun denomination => ?_,
    (pollAll_traced traced₃ polled).pays recorded⟩
  have sats : burn.auth.amountSats = actualSats deposit.amount := by
    rw [← amount]
    rfl
  rw [sats, actualSats_denomination denomination]

section Sample

/-- The server before the receipt of the sample deposit comes. -/
def waiting : State :=
  (GuardedRun.run (step covenantMode) (boot sampleGenesis) (depositLabels.take 3)).getD
    (boot sampleGenesis)

def sampleReceipt : Label := .reply 0 (.rpc (.receipt (.ok ⟨1, true, []⟩))) (sampleMoment ['d'])

def returned : Deposit := ⟨['0', 'x', '5'], ['0', 'x', '7'], sampleHash '3', 1000000000000000⟩

/-- The sample deposit comes back with the first poll after the failed attempt. -/
theorem deposit_returned_sample :
    ∃ s₁ s₃ s₄, step covenantMode waiting sampleReceipt = some s₁ ∧
      GuardedRun.run (step covenantMode) s₁
        (PaidWithdrawals.withdrawLabels covenantMode.toConfig offline sampleBurn sampleWithdraw
          (sampleMoment ['q']) 1) = some s₃ ∧
      pollAll covenantMode 1 s₃ [samplePoll] = some s₄ ∧
      Recorded covenantMode.toConfig sampleBurn.auth (some ['x']) s₄.db ∧
      sampleBurn.auth.amountSats = 100000 := by
  have ran : GuardedRun.run (step covenantMode) (boot sampleGenesis) (depositLabels.take 3) =
      some waiting := by
    have runs : (GuardedRun.run (step covenantMode) (boot sampleGenesis)
        (depositLabels.take 3)).isSome = true := by decide +kernel
    obtain ⟨s, there⟩ := Option.isSome_iff_exists.mp runs
    rw [waiting, there]
    rfl
  have steps : (step covenantMode waiting sampleReceipt).isSome = true := by decide +kernel
  obtain ⟨s₁, stepped⟩ := Option.isSome_iff_exists.mp steps
  have whole : GuardedRun.run (step covenantMode) (boot sampleGenesis) depositLabels =
      some s₁ := by
    have split : depositLabels = depositLabels.take 3 ++ [sampleReceipt] := rfl
    rw [split, GuardedRun.run_append, ran, Option.bind_some, GuardedRun.run, stepped]
    rfl
  have held : acknowledged.db = s₁.db := by
    rw [acknowledged, whole]
    rfl
  have acknowledges : Acknowledges covenantMode returned waiting s₁ := by
    refine ⟨0, .spvDeposit sampleDeposit, 1, sampleDeposit, .ok ⟨1, true, []⟩, ⟨1, true, []⟩,
      sampleMoment ['d'], nilUuid, by with_unfolding_all rfl, rfl, rfl, rfl, rfl,
      by decide +kernel, ⟨by decide, by decide +kernel⟩, stepped⟩
  have idle : s₁.tasks 1 = none := by
    refine run_idle covenantMode ?_ (rfl : (boot sampleGenesis).tasks 1 = none) whole
    simp [depositLabels, Label.handler]
  obtain ⟨call, gate⟩ := sample_gate
  have fresh := sample_fresh
  rw [held] at gate fresh
  obtain ⟨s₃, paid, polls⟩ := deposit_returned offline (sampleMoment ['q']) ran acknowledges
    (rfl : GuardedRun.run (step covenantMode) s₁ [] = some s₁) idle gate rfl sample_read fresh
  obtain ⟨s₄, polled, recorded, -, exact, -⟩ := polls [samplePoll]
  rw [sample_paid] at recorded
  have sats : 10000000000 * sampleBurn.auth.amountSats = 1000000000000000 :=
    exact (by decide +kernel)
  exact ⟨s₁, s₃, s₄, stepped, paid, polled, recorded, by omega⟩

end Sample

end PrivateBtc.Backend.ReturnedDeposits
