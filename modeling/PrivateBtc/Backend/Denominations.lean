/- PrivateBtc/Backend/Denominations
   digest: Which inserted vaults hold one of the four denominations, in the unit of withdrawals. -/

import PrivateBtc.Backend.ChainEvidence
import PrivateBtc.Backend.TimeLocks

set_option autoImplicit false
set_option relaxedAutoImplicit false

namespace PrivateBtc.Backend.Denominations

open Library Library.JsText Library.Outcome
open Contracts.Vault (Genesis)
open ChainEvidence CryptoService Database Deposits Http Server Starknet TimeLocks VaultWrites

variable {env : Environment} {s s' : State} {label : Label}

def ALLOWED_DENOMINATIONS_SATS : List Nat := [10000, 100000, 1000000, 10000000]

/-- The integer is an allowed denomination in wei. -/
def Denomination (wei : Int) : Prop :=
  ∃ sats ∈ ALLOWED_DENOMINATIONS_SATS, wei = 10000000000 * (sats : Int)

instance (wei : Int) : Decidable (Denomination wei) :=
  inferInstanceAs (Decidable (∃ sats ∈ ALLOWED_DENOMINATIONS_SATS, wei = 10000000000 * (sats : Int)))

/-- The amount that the vault's row decrypts to is an allowed denomination in wei. -/
def Denominated (env : Environment) (row : VaultRow) : Prop :=
  ∃ wei, decryptAmount env.crypto row.encryptedAmount row.salt = .ok wei ∧ Denomination wei

/-- The integer that the request of the handler brings, before it is stored: the satoshis of
prepare-deposit as they are, and ⌊amount · 10^18⌋ for the two other routes. -/
def broughtAmount : Task → Option Int
  | .deposit (.balance preparing) => some preparing.amount
  | .deposit (.waiting _ _ (.spv body)) => amountInWei body.amount
  | .deposit (.waiting _ _ (.relay relaying)) => amountInWei (some relaying.body.amount)
  | _ => none

/-- The vault that the handler stores. -/
def storedId : Task → Option Text
  | .deposit (.waiting _ _ (.spv body)) => body.stores.map Prod.fst
  | .deposit (.waiting _ _ (.relay relaying)) => some relaying.body.vaultId
  | _ => none

/-- A handler that goes on with a reply, and whose vault is not there yet, brings an allowed
denomination. -/
def Fits (s : State) : Label → Prop
  | .reply id _ _ => ∀ request task wei, s.tasks id = some (request, task) →
      (∀ vaultId, storedId task = some vaultId → vaultById s.db vaultId = none) →
      broughtAmount task = some wei → Denomination wei
  | _ => True

/-- A step that inserts a vault brings an allowed denomination. -/
def InsertsFit (env : Environment) (s : State) (label : Label) : Prop :=
  ∀ s' row, step env s label = some s' → Inserted s s' row → Fits s label

def relayingOf : Task → Option Relaying
  | .deposit (.executing (.relay relaying)) => some relaying
  | .deposit (.waiting _ _ (.relay relaying)) => some relaying
  | _ => none

/-- What commitment/deposit will store is the amount of its request. -/
structure Converted (env : Environment) (relaying : Relaying) : Prop where
  amount : amountInWei (some relaying.body.amount) = some relaying.amountInWei
  encrypted : decryptAmount env.crypto relaying.encryptedAmount relaying.salt =
    .ok relaying.amountInWei

theorem startRelay_converted {moment : Moment} {body : RelayDepositBody} {relaying : Relaying}
    (started : startRelay env.toConfig moment body = .ok relaying) : Converted env relaying := by
  have told : ∃ wei, amountInWei (some relaying.body.amount) = some wei ∧
      relaying.amountInWei = wei ∧ relaying.encryptedAmount =
        encryptAmount env.crypto moment.random.iv wei relaying.salt := by
    simp only [startRelay, bind_eq_ok, refuse_ok] at started
    obtain ⟨_, _, _, _, made⟩ := started
    -- the three ways to a nullifier end in the same record
    split at made <;> try split_ifs at made
    all_goals
      simp only [bind_eq_ok, pure_eq_ok, ok_bind] at made
      try obtain ⟨_, _, made⟩ := made
      split at made
      · cases made
      · next wei converted =>
        cases made
        exact ⟨wei, converted, rfl, rfl⟩
  obtain ⟨wei, converted, amount, encrypted⟩ := told
  refine ⟨by rw [converted, amount], ?_⟩
  rw [encrypted, amount, decryptAmount_encryptAmount]

theorem resumeDeposit_relaying {cfg : Payments.Config} {moment : Moment} {db : Db}
    {task later : DepositTask} {reply : RpcReply} {turn : DepositTurn} {relaying : Relaying}
    (resumed : resumeDeposit cfg moment db task reply = some turn)
    (next : turn.next = some later) (held : relayingOf (.deposit later) = some relaying) :
    relayingOf (.deposit task) = some relaying := by
  cases resumeDeposit_awaiting cfg moment resumed next with
  | @again txHash attempt attempt' confirmed was =>
      subst was
      cases confirmed <;> exact held
  | relay was answer =>
      subst was
      exact held
  | _ => cases held

theorem begin_relaying {moment : Moment} {issued : List ProofVerifier.ProofToken} {db : Db}
    {request : Request} {later : DepositTask} {relaying : Relaying}
    (next : (begin env moment issued db request).next = some (.deposit later))
    (held : relayingOf (.deposit later) = some relaying) : Converted env relaying := by
  cases begin_deposit env next with
  | relay started =>
      cases held
      exact startRelay_converted started
  | _ => cases held

theorem relayingOf_deposit {task : Task} {relaying : Relaying}
    (held : relayingOf task = some relaying) : ∃ t, task = .deposit t := by
  cases task with
  | deposit t => exact ⟨t, rfl⟩
  | _ => cases held

/-- Every waiting commitment/deposit holds the amount of its request. -/
def Held (env : Environment) (s : State) : Prop :=
  ∀ id request task relaying, s.tasks id = some (request, task) →
    relayingOf task = some relaying → Converted env relaying

theorem step_held (holds : Held env s) (stepped : step env s label = some s') : Held env s' := by
  intro id request task relaying waits held
  cases step_arises env stepped waits with
  | kept before => exact holds _ _ _ relaying before held
  | begun next =>
      obtain ⟨t, rfl⟩ := relayingOf_deposit held
      exact begin_relaying next held
  | resumed before went next =>
      obtain ⟨t, rfl⟩ := relayingOf_deposit held
      obtain ⟨t₀, rpc, after, rfl, rfl, resumed, waits'⟩ := resume_deposit went next
      exact holds _ _ _ relaying before (resumeDeposit_relaying resumed waits' held)
  | expired before went next =>
      obtain ⟨t, rfl⟩ := expire_next went next
      cases held

theorem missing_of_fresh {db : Db} {id : Text} (fresh : ∀ v ∈ db.vaults.rows, v.id ≠ id) :
    vaultById db id = none := by
  rw [vaultById, Table.find?, List.find?_eq_none]
  intro v member
  simpa using fresh v member

/-- An inserted row decrypts to what its handler has brought. -/
theorem inserted_amount {row : VaultRow} (holds : Held env s)
    (issues : Issues env s label (.insert row)) (fresh : ∀ v ∈ s.db.vaults.rows, v.id ≠ row.id) :
    ∃ id reply moment request task wei, label = .reply id reply moment ∧
      s.tasks id = some (request, task) ∧
      (∀ vaultId, storedId task = some vaultId → vaultById s.db vaultId = none) ∧
      broughtAmount task = some wei ∧
      decryptAmount env.crypto row.encryptedAmount row.salt = .ok wei := by
  have missing := missing_of_fresh fresh
  cases issues with
  | @prepared id request moment reply preparing row waits made =>
      simp only [preparedRow, bind_eq_ok, pure_eq_ok, Except.ok.injEq] at made
      obtain ⟨commitment, -, nullifierHash, -, rfl⟩ := made
      refine ⟨id, reply, moment, request, _, preparing.amount, rfl, waits, ?_, rfl, ?_⟩
      · intro vaultId stored
        cases stored
      · exact decryptAmount_encryptAmount ..
  | @spv id attempt request moment receipt txHash vaultId nullifierHash body amount db' _ waits
      succeeded stores converted stored told =>
      split_ifs at told
      cases told
      refine ⟨id, _, moment, request, _, amount, rfl, waits, ?_, converted, ?_⟩
      · intro other named
        rw [storedId, stores] at named
        cases named
        exact missing
      · exact decryptAmount_encryptAmount ..
  | @relayed id attempt request moment receipt txHash relaying db' _ waits succeeded stored told =>
      rcases told with told | told
      · cases told
        have made := holds id request _ relaying waits rfl
        refine ⟨id, _, moment, request, _, relaying.amountInWei, rfl, waits, ?_, made.amount,
          made.encrypted⟩
        intro other named
        cases named
        exact missing
      · cases told

theorem inserted_iff {row : VaultRow} (holds : Held env s)
    (issues : Issues env s label (.insert row)) (fresh : ∀ v ∈ s.db.vaults.rows, v.id ≠ row.id) :
    Denominated env row ↔ Fits s label := by
  obtain ⟨id, reply, moment, request, task, wei, rfl, waits, missing, brought, decrypted⟩ :=
    inserted_amount holds issues fresh
  constructor
  · rintro ⟨found, read, denomination⟩ other held other_wei there - told
    rw [decrypted, Except.ok.injEq] at read
    subst read
    rw [waits, Option.some.injEq, Prod.mk.injEq] at there
    obtain ⟨-, rfl⟩ := there
    rw [brought, Option.some.injEq] at told
    rw [← told]
    exact denomination
  · intro fits
    exact ⟨wei, decrypted, fits request task wei waits missing brought⟩

theorem Denominated.same {row row' : VaultRow} (denominated : Denominated env row)
    (same : SameVault row row') : Denominated env row' := by
  obtain ⟨wei, decrypted, denomination⟩ := denominated
  exact ⟨wei, by rw [same.encryptedAmount, same.salt, decrypted], denomination⟩

/-- No statement changes the amount of a vault, so only an insertion can bring another one. -/
theorem step_denominated (holds : Held env s)
    (denominated : ∀ row ∈ s.db.vaults.rows, Denominated env row) (fits : InsertsFit env s label)
    (stepped : step env s label = some s') : ∀ row ∈ s'.db.vaults.rows, Denominated env row := by
  intro row member
  by_cases fresh : ∀ v ∈ s.db.vaults.rows, v.id ≠ row.id
  · have inserted : Inserted s s' row := ⟨member, fresh⟩
    exact (inserted_iff holds (inserted_issues stepped inserted) fresh).mpr
      (fits s' row stepped inserted)
  · obtain ⟨v, there, named⟩ : ∃ v ∈ s.db.vaults.rows, v.id = row.id := by
      simpa using fresh
    obtain ⟨v', later, same⟩ := (step_wrote env stepped).kept there
    rw [eq_of_id member later (named.symm.trans same.id.symm)]
    exact (denominated v there).same same

/-- In a run whose insertions all bring an allowed denomination in wei every vault has one; and
the next inserted vault has one exactly when its handler brings one. -/
theorem denominated_iff {genesis : Genesis} (run : Reaches env (InsertsFit env) (boot genesis) s) :
    (∀ row ∈ s.db.vaults.rows, Denominated env row) ∧
      ∀ label s' row, step env s label = some s' → Inserted s s' row →
        (Denominated env row ↔ Fits s label) := by
  have both : Held env s ∧ ∀ row ∈ s.db.vaults.rows, Denominated env row := by
    let Kept (s : State) : Prop := Held env s ∧ ∀ row ∈ s.db.vaults.rows, Denominated env row
    have first : Kept (boot genesis) := by
      constructor
      · intro id request task relaying waits
        cases waits
      · intro row member
        cases member
    refine run.invariant first ?_
    rintro s₁ label s₂ ⟨holds, denominated⟩ fits stepped
    exact ⟨step_held holds stepped, step_denominated holds denominated fits stepped⟩
  refine ⟨both.2, ?_⟩
  intro label s' row stepped inserted
  exact inserted_iff both.1 (inserted_issues stepped inserted) inserted.2

section Samples

def fitsLabel (s : State) : Label → Bool
  | .reply id _ _ =>
      match s.tasks id with
      | some (_, task) => (broughtAmount task).all fun wei => decide (Denomination wei)
      | none => true
  | _ => true

theorem fitsLabel_fits {s : State} {label : Label} (told : fitsLabel s label = true) :
    Fits s label := by
  cases label with
  | reply id reply moment =>
      rintro request task wei waits - brought
      simpa [fitsLabel, waits, brought] using told
  | _ => trivial

/-- The sample deposit of 0.001 BTC is one of the denominations. -/
theorem denominated_spv :
    ∃ s, Reaches covenantMode (InsertsFit covenantMode) (boot sampleGenesis) s ∧
      s.db.vaults.rows.length = 1 ∧ ∀ row ∈ s.db.vaults.rows, Denominated covenantMode row := by
  have ran : (GuardedRun.runIf (step covenantMode) fitsLabel (boot sampleGenesis)
      depositLabels).map (fun s => s.db.vaults.rows.length) = some 1 := by decide +kernel
  obtain ⟨s, ran, length⟩ := Option.map_eq_some_iff.mp ran
  have run : Reaches covenantMode (InsertsFit covenantMode) (boot sampleGenesis) s :=
    GuardedRun.Reaches.start.of_runIf (fun _ _ told _ _ _ _ => fitsLabel_fits told) ran
  exact ⟨s, run, length, (denominated_iff run).1⟩

/-- prepare-deposit of 100000 satoshis, an allowed denomination, stores the integer 100000. -/
theorem prepared_satoshis :
    ∃ s, Reaches covenantMode (fun _ _ => True) (boot sampleGenesis) s ∧
      ∃ row ∈ s.db.vaults.rows, ¬ Denominated covenantMode row := by
  have ran : (GuardedRun.run (step covenantMode) (boot sampleGenesis)
      [prepareLabel, insertLabel]).map (fun s => s.db.vaults.rows.map fun v =>
        (decryptAmount covenantMode.crypto v.encryptedAmount v.salt).toOption) =
      some [some 100000] := by decide +kernel
  obtain ⟨s, ran, amounts⟩ := Option.map_eq_some_iff.mp ran
  obtain ⟨row, rows, amount⟩ := List.map_eq_singleton_iff.mp amounts
  refine ⟨s, GuardedRun.Reaches.start.of_run (fun _ _ _ => trivial) ran, row,
    by rw [rows]; exact List.mem_singleton_self row, ?_⟩
  rintro ⟨wei, decrypted, denomination⟩
  rw [decrypted] at amount
  cases amount
  exact absurd denomination (by decide)

end Samples

end PrivateBtc.Backend.Denominations
