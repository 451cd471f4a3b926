/- PrivateBtc/Backend/VaultAmounts
   digest: Which requests leave a vault with the amount of the output that the contract verified. -/

import PrivateBtc.Backend.ChainEvidence
import PrivateBtc.Contracts.MerkleProof

set_option autoImplicit false
set_option relaxedAutoImplicit false

namespace PrivateBtc.Backend.VaultAmounts

open Library Library.JsText Library.Outcome
open Contracts.Vault (Call Event Genesis)
open ChainEvidence CryptoService Database Deposits Http Processor Server Starknet VaultWrites

variable (env : Environment)

/-- The contract has verified an output for the vault's commitment, and its satoshis are the
amount of the vault, in wei. -/
def Exact (chain : Chain) (row : VaultRow) : Prop :=
  (∃ sats, Verified env chain row.commitment sats) ∧ ∀ sats, Verified env chain row.commitment sats →
    decryptAmount env.crypto row.encryptedAmount row.salt = .ok (10000000000 * (sats : Int))

def Matched (chain : Chain) (row : VaultRow) : Prop :=
  ∃ sats : Nat, Verified env chain row.commitment sats ∧
    decryptAmount env.crypto row.encryptedAmount row.salt = .ok (10000000000 * sats)

/-- The transaction has deposited an output of the vault's amount for its commitment. -/
def PaysFor (chain : Chain) (txHash : Text) (row : VaultRow) : Prop :=
  ∃ held calls caller args, chain.included (canonicalHash txHash) = some held ∧
    held.succeeded = true ∧ held.calls = some calls ∧ Call.deposit caller args ∈ calls ∧
    env.felts.felt row.commitment = some args.commitment ∧
    decryptAmount env.crypto row.encryptedAmount row.salt = .ok (10000000000 * args.amountSats)

/-- The request of spv-deposit brings the amount of its output: itself for a new vault, or in the
vault with its commitment that it names. -/
def BringsAmount (db : Db) (body : SpvDepositBody) : Prop :=
  ∀ vaultId nullifierHash, body.stores = some (vaultId, nullifierHash) →
    match vaultById db vaultId with
    | none => ∀ wei, amountInWei body.amount = some wei → wei = 10000000000 * outputSats body
    | some row => env.felts.felt row.commitment = env.felts.felt body.commitment ∧
        decryptAmount env.crypto row.encryptedAmount row.salt =
          .ok (10000000000 * outputSats body)

/-- The amounts that confirm-deposit and spv-deposit take over are those of the outputs. -/
def Faithful (s : State) : Label → Prop
  | .reply id _ _ => ∀ request task, s.tasks id = some (request, task) →
      match task with
      | .deposit (.block txHash confirming _) =>
          ∀ row ∈ s.db.vaults.rows, row.id = confirming.vaultId → PaysFor env s.chain txHash row
      | .deposit (.waiting _ _ (.spv body)) => BringsAmount env s.db body
      | _ => True
  | _ => True

/-- A vault with a deposit transaction. -/
def Deposited (db : Db) (vaultId : Text) : Prop :=
  ∃ row ∈ db.vaults.rows, row.id = vaultId ∧ row.depositTxHash ≠ none

/-- An open vault has a deposit transaction, and with one its amount is matched by an output. -/
structure Sound (chain : Chain) (row : VaultRow) : Prop where
  opened : row.status ≠ .pending → row.depositTxHash ≠ none
  matched : row.depositTxHash ≠ none → Matched env chain row

/-- The handlers that will write a status to a vault know it with its deposit transaction. -/
structure Tracked (s : State) : Prop where
  traced : Traced env s
  sound : ∀ row ∈ s.db.vaults.rows, Sound env s.chain row
  subjects : ∀ id request task subject, s.tasks id = some (request, task) →
    about task = some subject → Deposited s.db subject.1
  listed : ∀ id request task, s.tasks id = some (request, .audit task) →
    ∀ vault ∈ listed task, Deposited s.db vault.id

variable {env} {s s' : State} {label : Label}

theorem Matched.carry {chain chain' : Chain} {row row' : VaultRow}
    (matched : Matched env chain row)
    (grows : chain.world.vault.events ⊆ chain'.world.vault.events) (same : SameVault row row') :
    Matched env chain' row' := by
  obtain ⟨sats, ⟨felt, height, read, verified⟩, decrypted⟩ := matched
  exact ⟨sats, ⟨felt, height, same.commitment ▸ read, grows verified⟩,
    by rw [same.encryptedAmount, same.salt, decrypted]⟩

theorem matched_of_pays {chain : Chain} {txHash : Text} {row : VaultRow} (evident : Evident chain)
    (pays : PaysFor env chain txHash row) : Matched env chain row := by
  obtain ⟨held, calls, caller, args, there, good, told, member, felt, decrypted⟩ := pays
  obtain ⟨calls', told', left⟩ := evident.events _ held there good
  cases told.symm.trans told'
  exact ⟨args.amountSats, ⟨args.commitment, args.blockHeight, felt, left caller args member⟩,
    decrypted⟩

theorem deposited_row {db : Db} {row : VaultRow} (deposited : Deposited db row.id)
    (member : row ∈ db.vaults.rows) : row.depositTxHash ≠ none := by
  obtain ⟨other, there, same, set⟩ := deposited
  rwa [eq_of_id there member same] at set

/-- A write that leaves the deposit transaction of a vault that has one. -/
theorem sound_of_deposited {chain : Chain} {row row' : VaultRow} (sound : Sound env chain row)
    (deposited : row.depositTxHash ≠ none) (same : SameVault row row')
    (kept : row'.depositTxHash = row.depositTxHash) : Sound env chain row' :=
  ⟨fun _ => kept ▸ deposited, fun _ =>
    (sound.matched deposited).carry (List.Subset.refl _) same⟩

/-- A write that gives a deposit transaction to a vault whose amount is matched. -/
theorem sound_of_matched {chain : Chain} {row row' : VaultRow} (matched : Matched env chain row)
    (same : SameVault row row') (set : row'.depositTxHash ≠ none) : Sound env chain row' :=
  ⟨fun _ => set, fun _ => matched.carry (List.Subset.refl _) same⟩

/-- A vault that a statement changes stays sound. -/
theorem changed_sound (tracked : Tracked env s) (honest : Honest env s label)
    (faithful : Faithful env s label) {write : VaultWrite} (issues : Issues env s label write)
    {row : VaultRow} (member : row ∈ s.db.vaults.rows) (selected : write.selects row = true) :
    Sound env s.chain (write.change row) := by
  have sound := tracked.sound row member
  have same := write.change_same row
  have closes : ∀ {id request task vaultId nullifierHash}, s.tasks id = some (request, task) →
      about task = some (vaultId, nullifierHash) → (row.id == vaultId) = true →
      row.depositTxHash ≠ none := by
    intro id request task vaultId nullifierHash waits told here
    have known := tracked.subjects id request task _ waits told
    rw [← beq_iff_eq.mp here] at known
    exact deposited_row known member
  cases issues with
  | prepared _ _ => cases selected
  | activated waits _ =>
      rw [VaultWrite.selects, beq_iff_eq] at selected
      exact sound_of_matched (matched_of_pays tracked.traced.evident
        (faithful _ _ waits row member selected)) same (Option.some_ne_none _)
  | @spv id attempt request moment receipt txHash vaultId nullifierHash body amount _ _ waits
      succeeded stores converted stored told =>
      split_ifs at told with known
      · subst told
        have here : (row.id == vaultId) = true := selected
        have found : vaultById s.db vaultId = some row :=
          vaultById_of_mem member (beq_iff_eq.mp here)
        have brings := faithful request _ waits vaultId nullifierHash stores
        simp only [found] at brings
        obtain ⟨felt, height, read, verified⟩ := spv_verified tracked.traced honest waits succeeded
        exact sound_of_matched ⟨outputSats body, ⟨felt, height, brings.1.trans read, verified⟩,
          brings.2⟩ same (Option.some_ne_none _)
      · subst told
        cases selected
  | relayed waits succeeded _ _ =>
      rw [relay_unconfirmed tracked.traced honest waits] at succeeded
      cases succeeded
  | @refreshed id request moment reply task status waits told =>
      have deposited : row.depositTxHash ≠ none := by
        cases task with
        | auditing txHash rest audit =>
            have set : (row.depositTxHash == some txHash) = true := selected
            rw [beq_iff_eq.mp set]
            exact Option.some_ne_none _
        | syncing vault rest =>
            have here : (row.id == vault.id) = true := selected
            have known := tracked.listed id request _ waits vault List.mem_cons_self
            rw [← beq_iff_eq.mp here] at known
            exact deposited_row known member
      exact sound_of_deposited sound deposited same rfl
  | submitted waits => exact sound_of_deposited sound (closes waits rfl selected) same rfl
  | raced waits first =>
      exact sound_of_deposited sound (closes waits (by rw [about, first]; rfl) selected) same rfl
  | expired waits first =>
      exact sound_of_deposited sound (closes waits (by rw [about, first]; rfl) selected) same rfl
  | spent waits _ _ _ _ => exact sound_of_deposited sound (closes waits rfl selected) same rfl

/-- A vault that a statement adds is sound. -/
theorem added_sound (tracked : Tracked env s) (honest : Honest env s label)
    (faithful : Faithful env s label) {row : VaultRow}
    (issues : Issues env s label (.insert row)) : Sound env s.chain row := by
  cases issues with
  | prepared _ made =>
      simp only [preparedRow, bind_eq_ok, pure_eq_ok, Except.ok.injEq] at made
      obtain ⟨commitment, -, nullifierHash, -, rfl⟩ := made
      exact ⟨fun open_ => absurd rfl open_, fun set => absurd rfl set⟩
  | @spv id attempt request moment receipt txHash vaultId nullifierHash body amount _ _ waits
      succeeded stores converted stored told =>
      split_ifs at told with known
      cases told
      have missing : vaultById s.db vaultId = none := by simpa using known
      have brings := faithful request _ waits vaultId nullifierHash stores
      simp only [missing] at brings
      have wei := brings amount converted
      refine ⟨fun _ => Option.some_ne_none _, fun _ => ?_⟩
      refine ⟨outputSats body, spv_verified tracked.traced honest waits succeeded, ?_⟩
      have own : decryptAmount env.crypto
          (spvRow env.toConfig moment body vaultId nullifierHash txHash amount).encryptedAmount
          (spvRow env.toConfig moment body vaultId nullifierHash txHash amount).salt = .ok amount :=
        decryptAmount_encryptAmount ..
      rw [own, wei]
  | relayed waits succeeded _ _ =>
      rw [relay_unconfirmed tracked.traced honest waits] at succeeded
      cases succeeded

/-- No statement takes a deposit transaction back. -/
theorem written_deposited {write : VaultWrite} (issues : Issues env s label write)
    {row : VaultRow} (set : row.depositTxHash ≠ none) :
    (write.written row).depositTxHash ≠ none := by
  unfold VaultWrite.written
  split_ifs
  · cases write with
    | activate vaultId txHash => exact Option.some_ne_none _
    | revive new =>
        cases issues with
        | spv _ _ _ _ _ told =>
            split_ifs at told
            cases told
            exact Option.some_ne_none _
        | relayed _ _ _ told => rcases told with told | told <;> cases told
    | reviveRelayed relaying txHash => exact Option.some_ne_none _
    | _ => exact set
  · exact set

theorem step_deposited (stepped : step env s label = some s') {vaultId : Text}
    (deposited : Deposited s.db vaultId) : Deposited s'.db vaultId := by
  obtain ⟨row, member, named, set⟩ := deposited
  cases step_wrote env stepped with
  | nothing vaults _ => exact ⟨row, by rwa [vaults], named, set⟩
  | wrote write issues rows _ =>
      refine ⟨write.written row, ?_, (write.written_id row).trans named,
        written_deposited issues set⟩
      rw [rows]
      exact List.mem_append_left _ (List.mem_map_of_mem member)

theorem step_events (stepped : step env s label = some s') :
    s.chain.world.vault.events ⊆ s'.chain.world.vault.events := by
  cases step_stepped env stepped with
  | request idle => exact List.Subset.refl _
  | @reply id request task reply moment turn waits resumed =>
      show s.chain.world.vault.events ⊆ (submit env s.chain task reply).world.vault.events
      unfold submit
      split
      · split <;> exact List.Subset.refl _
      · exact List.Subset.refl _
  | timeout waits expired => exact List.Subset.refl _
  | land => exact List.Subset.refl _
  | block fresh => exact includeCalls_events ..

theorem Sound.grow {chain chain' : Chain} {row : VaultRow} (sound : Sound env chain row)
    (grows : chain.world.vault.events ⊆ chain'.world.vault.events) : Sound env chain' row :=
  ⟨sound.opened, fun set => (sound.matched set).carry grows (SameVault.refl row)⟩

theorem step_sound (tracked : Tracked env s) (honest : Honest env s label)
    (faithful : Faithful env s label) (stepped : step env s label = some s') :
    ∀ row ∈ s'.db.vaults.rows, Sound env s'.chain row := by
  intro row' member'
  refine Sound.grow ?_ (step_events stepped)
  cases step_wrote env stepped with
  | nothing vaults _ => exact tracked.sound row' (vaults ▸ member')
  | wrote write issues rows _ =>
      rw [rows] at member'
      rcases List.mem_append.mp member' with old | new
      · obtain ⟨row, member, rfl⟩ := List.mem_map.mp old
        unfold VaultWrite.written
        split_ifs with selected
        · exact changed_sound tracked honest faithful issues member selected
        · exact tracked.sound row member
      · cases write with
        | insert row =>
            rw [List.mem_singleton.mp new]
            exact added_sound tracked honest faithful issues
        | _ => cases new

/-- A handler goes on to refresh vaults that it has listed before. -/
theorem resume_listed {moment : Moment} {nextRequest : Nat} {db : Db} {task : Task}
    {reply : Reply} {turn : SystemTurn} {later : AuditTask}
    (resumed : resume env moment nextRequest db task reply = some turn)
    (next : turn.next = some (.audit later)) :
    ∃ before, task = .audit before ∧ ∀ vault ∈ listed later, vault ∈ listed before := by
  cases resume_resumed env resumed with
  | audit went =>
      obtain ⟨_, told, same⟩ := lift_next.mp next
      cases same
      exact ⟨_, rfl, (resumeAudit_refreshes went).next _ told⟩
  | _ =>
      obtain ⟨_, _, told⟩ := Option.map_eq_some_iff.mp next
      cases told

/-- A refresh lists vaults that have a deposit transaction. -/
theorem begin_listed {moment : Moment} {issued : List ProofVerifier.ProofToken} {db : Db}
    {request : Request} {later : AuditTask}
    (next : (begin env moment issued db request).next = some (.audit later)) :
    ∀ vault ∈ listed later, vault ∈ db.vaults.rows ∧ vault.depositTxHash ≠ none := by
  intro vault member
  cases request with
  | auditVerify =>
      obtain ⟨t, told, same⟩ := lift_next.mp next
      cases same
      rw [auditNext_listed _ _ _ _ told] at member
      cases member
  | autoSync =>
      obtain ⟨t, told, same⟩ := lift_next.mp next
      cases same
      rw [syncNext_listed _ _ _ told] at member
      obtain ⟨there, chosen⟩ := List.mem_filter.mp member
      refine ⟨there, ?_⟩
      rw [Bool.and_eq_true] at chosen
      exact Option.isSome_iff_ne_none.mp chosen.2
  | _ =>
      obtain ⟨_, _, told⟩ := Option.map_eq_some_iff.mp next
      cases told

theorem step_tracked (tracked : Tracked env s) (honest : Honest env s label)
    (faithful : Faithful env s label) (stepped : step env s label = some s') :
    Tracked env s' := by
  refine ⟨step_traced tracked.traced honest stepped,
    step_sound tracked honest faithful stepped, ?_, ?_⟩
  · intro id request task subject waits told
    refine step_deposited stepped ?_
    cases step_arises env stepped waits with
    | kept before => exact tracked.subjects _ _ _ subject before told
    | begun next =>
        obtain ⟨row, member, named, active, -⟩ := begin_about env next told
        exact ⟨row, member, named, (tracked.sound row member).opened (by simp [active])⟩
    | resumed before went next =>
        exact tracked.subjects _ _ _ subject before (resume_stays env went _ next subject told)
    | expired before went next =>
        exact tracked.subjects _ _ _ subject before (expire_stays went _ next subject told)
  · intro id request task waits vault member
    refine step_deposited stepped ?_
    cases step_arises env stepped waits with
    | kept before => exact tracked.listed _ _ _ before vault member
    | begun next =>
        obtain ⟨there, set⟩ := begin_listed next vault member
        exact ⟨vault, there, rfl, set⟩
    | resumed before went next =>
        obtain ⟨earlier, rfl, within⟩ := resume_listed went next
        exact tracked.listed _ _ _ before vault (within vault member)
    | expired before went next =>
        obtain ⟨t, other⟩ := expire_next went next
        cases other

theorem boot_tracked (genesis : Genesis) : Tracked env (boot genesis) where
  traced := boot_traced genesis
  sound := fun _ member => by cases member
  subjects := fun _ _ _ _ waits => by cases waits
  listed := fun _ _ _ waits => by cases waits

/-- In every run over an honest node whose deposits take over the amounts of their outputs, an
active or withdrawn vault has the amount that the contract verified for its commitment. -/
theorem open_exact {genesis : Genesis}
    (run : Reaches env (fun s label => Honest env s label ∧ Faithful env s label) (boot genesis) s) :
    ∀ row ∈ s.db.vaults.rows, row.status = .active ∨ row.status = .withdrawn →
      Exact env s.chain row := by
  have tracked : Tracked env s := run.invariant (boot_tracked genesis)
    fun _ _ _ tracked permitted stepped => step_tracked tracked permitted.1 permitted.2 stepped
  intro row member status
  have open_ : row.status ≠ .pending := by
    rcases status with active | withdrawn
    · simp [active]
    · simp [withdrawn]
  have sound := tracked.sound row member
  obtain ⟨sats, verified, decrypted⟩ := sound.matched (sound.opened open_)
  refine ⟨⟨sats, verified⟩, fun other verified' => ?_⟩
  rw [verified'.unique tracked.traced.evident verified, decrypted]

section Samples

open Contracts.Hashing (doubleSha256)
open Contracts.MerkleProof (payment)

/-- A new hash, and a success that the chain shows. -/
def honestLabel (s : State) : Label → Bool
  | .reply _ (.rpc (.executed (.ok txHash))) _ =>
      (s.chain.submitted (canonicalHash txHash)).isNone &&
        (s.chain.included (canonicalHash txHash)).isNone
  | .reply id (.rpc (.receipt (.ok _))) _ =>
      (s.tasks id).all fun held => (asksReceipt held.2).all fun txHash =>
        (s.chain.included (canonicalHash txHash)).any fun included => included.succeeded
  | _ => true

theorem honestLabel_honest {s : State} {label : Label} (told : honestLabel s label = true) :
    Honest env s label := by
  unfold Honest
  split
  · next id txHash moment =>
    intro request task sent _ _
    simp only [honestLabel, Bool.and_eq_true, Option.isNone_iff_eq_none] at told
    refine ⟨told.1, fun held there => ?_⟩
    rw [told.2] at there
    cases there
  · next id receipt moment =>
    intro _ request task txHash waits asked
    simp only [honestLabel, waits, asked, Option.all_some, Option.any_eq_true] at told
    exact told
  · trivial

/-- A new vault that brings the amount of its output. -/
def faithfulLabel (s : State) : Label → Bool
  | .reply id _ _ =>
      match s.tasks id with
      | some (_, .deposit (.block ..)) => false
      | some (_, .deposit (.waiting _ _ (.spv body))) =>
          body.stores.all fun ids => (vaultById s.db ids.1).isNone &&
            (amountInWei body.amount).all fun wei => wei == 10000000000 * (outputSats body : Int)
      | _ => true
  | _ => true

theorem faithfulLabel_faithful {s : State} {label : Label} (told : faithfulLabel s label = true) :
    Faithful env s label := by
  cases label with
  | reply id reply moment =>
      intro request task waits
      simp only [faithfulLabel, waits] at told
      split
      · cases told
      · intro vaultId nullifierHash stores
        simp only [stores, Option.all_some, Bool.and_eq_true, Option.isNone_iff_eq_none] at told
        simp only [told.1]
        intro wei converted
        simpa [converted] using told.2
      · trivial
  | _ => trivial

/-- The vault's Taproot key is the one that the sample payments are made to. -/
def payableGenesis : Genesis :=
  let word : UInt32 := 0xabababab
  { sampleGenesis with
    world := { sampleGenesis.world with
      vault := { sampleGenesis.world.vault with
        vaultTapkey := ⟨word, word, word, word, word, word, word, word⟩ } }
    vaultTapkey := ⟨word, word, word, word, word, word, word, word⟩
    deployed := rfl }

/-- The header of a block with one payment of 100000 satoshis is relayed, and the payment is
deposited under the amount that the request brings. -/
def paidLabels (amount : Option Double) : List Label :=
  [.block (sampleHash '8') (some [.storeHeader 12 1 (doubleSha256 Sha256.sha256 (payment 100000))]),
    .request 0 (.spvDeposit { sampleDeposit with rawTxBytes := payment 100000, amount })
      (sampleMoment ['d']),
    .reply 0 (.rpc (.headerStored true)) (sampleMoment ['d']),
    .reply 0 (.rpc (.executed (.ok (sampleHash '3')))) (sampleMoment ['d']),
    .block (sampleHash '3') none,
    .reply 0 (.rpc (.receipt (.ok ⟨1, true, []⟩))) (sampleMoment ['d'])]

/-- The amounts of the active vaults, and the satoshis of the deposits for the sample commitment. -/
def amounts (s : State) : List (Option Int) × List Nat :=
  ((s.db.vaults.rows.filter fun v => v.status == .active && v.commitment == ['0', 'x', '5']).map
      fun v => (decryptAmount covenantMode.crypto v.encryptedAmount v.salt).toOption,
    s.chain.world.vault.events.filterMap fun event =>
      match event with
      | .deposit felt sats _ => if felt = 5 then some sats else none
      | .withdrawal .. => none)

theorem amounts_row {s : State} {wei : Int} {sats : Nat}
    (found : amounts s = ([some wei], [sats])) :
    ∃ row ∈ s.db.vaults.rows, row.status = .active ∧
        Verified covenantMode s.chain row.commitment sats ∧
      decryptAmount covenantMode.crypto row.encryptedAmount row.salt = .ok wei := by
  simp only [amounts, Prod.mk.injEq] at found
  obtain ⟨vaults, events⟩ := found
  have listed : some wei ∈ [some wei] := List.mem_cons_self
  rw [← vaults] at listed
  obtain ⟨row, chosen, decrypted⟩ := List.mem_map.mp listed
  obtain ⟨member, meets⟩ := List.mem_filter.mp chosen
  rw [Bool.and_eq_true, beq_iff_eq, beq_iff_eq] at meets
  have logged : sats ∈ [sats] := List.mem_cons_self
  rw [← events] at logged
  obtain ⟨event, there, told⟩ := List.mem_filterMap.mp logged
  refine ⟨row, member, meets.1, ?_, ?_⟩
  · split at told
    · next felt amount height =>
      split_ifs at told with named
      cases told
      refine ⟨5, height, ?_, named ▸ there⟩
      rw [meets.2]
      rfl
    · cases told
  · cases read : decryptAmount covenantMode.crypto row.encryptedAmount row.salt with
    | error message =>
        rw [read] at decrypted
        cases decrypted
    | ok amount =>
        rw [read] at decrypted
        cases decrypted
        rfl

/-- A request without an amount: the output of 100000 satoshis leaves an active vault of nothing. -/
theorem unstated_amount :
    ∃ s, Reaches covenantMode (Honest covenantMode) (boot payableGenesis) s ∧
      ∃ row ∈ s.db.vaults.rows, row.status = .active ∧ ¬ Exact covenantMode s.chain row := by
  have ran : (GuardedRun.runIf (step covenantMode) honestLabel (boot payableGenesis)
      (paidLabels none)).map amounts = some ([some 0], [100000]) := by decide +kernel
  obtain ⟨s, ran, found⟩ := Option.map_eq_some_iff.mp ran
  have reached : Reaches covenantMode (Honest covenantMode) (boot payableGenesis) s :=
    GuardedRun.Reaches.start.of_runIf (fun _ _ told => honestLabel_honest told) ran
  obtain ⟨row, member, active, verified, decrypted⟩ := amounts_row found
  refine ⟨s, reached, row, member, active, fun exact_ => ?_⟩
  have stated := exact_.2 100000 verified
  rw [decrypted] at stated
  cases stated

/-- With its own amount the same deposit is exact. -/
theorem stated_amount :
    ∃ s, Reaches covenantMode (fun s label => Honest covenantMode s label ∧
        Faithful covenantMode s label) (boot payableGenesis) s ∧
      ∃ row ∈ s.db.vaults.rows, row.status = .active ∧ Exact covenantMode s.chain row := by
  have ran : (GuardedRun.runIf (step covenantMode)
      (fun s label => honestLabel s label && faithfulLabel s label) (boot payableGenesis)
      (paidLabels (some (.finite (1 / 1000))))).map amounts =
        some ([some 1000000000000000], [100000]) := by decide +kernel
  obtain ⟨s, ran, found⟩ := Option.map_eq_some_iff.mp ran
  have reached : Reaches covenantMode (fun s label => Honest covenantMode s label ∧
      Faithful covenantMode s label) (boot payableGenesis) s := by
    refine GuardedRun.Reaches.start.of_runIf (fun s label told => ?_) ran
    rw [Bool.and_eq_true] at told
    exact ⟨honestLabel_honest told.1, faithfulLabel_faithful told.2⟩
  obtain ⟨row, member, active, -, -⟩ := amounts_row found
  exact ⟨s, reached, row, member, active, open_exact reached row member (Or.inl active)⟩

end Samples

end PrivateBtc.Backend.VaultAmounts
