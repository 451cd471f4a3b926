/- PrivateBtc/Backend/CommitmentUnits
   digest: The amounts that a commitment is made of and recomputed from, on both creation paths. -/

import Mathlib.Data.Rat.Floor
import PrivateBtc.Backend.StoredNullifiers

set_option autoImplicit false
set_option relaxedAutoImplicit false

namespace PrivateBtc.Backend.CommitmentUnits

open Library Library.JsText Library.Outcome
open Contracts.Corelib (Felt)
open CryptoService Database Deposits Http ProofVerifier Server StoredNullifiers
open Payments (Config)

section Readings

/-- Math.round(parseFloat(amountBTC) * 1e8).toString() -/
def doubleSats (amountBTC : Text) : Text :=
  ((Double.parseFloat amountBTC).mul (.finite 100000000)).round.toText

/-- The rounding in exact decimal arithmetic. -/
def satsOf (amountBTC : Text) : Option Int :=
  (Double.decimalValue amountBTC).map fun btc => (btc * 100000000 + 1 / 2).floor

def exactSats (amountBTC : Text) : Text :=
  match satsOf amountBTC with
  | some sats => toText 10 sats
  | none => ['N', 'a', 'N']

variable (crypto : Crypto) (sats : Text → Text)

/-- `generateCommitment` over a reading of the amount. -/
def generateCommitmentBy (amountBTC secret : Text) : Except String Text :=
  if Double.parsesInt (sats amountBTC) then computePedersenHash crypto (sats amountBTC) secret
  else .error s!"Invalid amount: {String.ofList amountBTC}"

def verifyCommitmentBy (amount secret commitment : Text) : Bool :=
  orFalse (do timingSafeEqual (← generateCommitmentBy crypto sats amount secret) commitment)

/-- Check 3 of `verifyWithdrawProof`. -/
def commitmentMatch (vault : VaultRow) (randomness : Text) : Bool :=
  match decryptAmount crypto vault.encryptedAmount vault.salt with
  | .ok amountSats => verifyCommitmentBy crypto sats (toText 10 amountSats) randomness
      vault.commitment
  | .error _ => false

/-- Check 4 of `verifyWithdrawProof`. -/
def nullifierMatch (vault : VaultRow) (randomness : Text) : Bool :=
  match vault.nullifierHash with
  | some nullifierHash => verifyNullifier crypto vault.commitment randomness nullifierHash
  | none => false

example (db : Db) (nowSecs : Nat) (proof : WithdrawProof) (vault : VaultRow) :
    (checkVault crypto db nowSecs proof vault).commitmentMatch =
        commitmentMatch crypto doubleSats vault proof.randomness ∧
      (checkVault crypto db nowSecs proof vault).nullifierMatch =
        nullifierMatch crypto vault proof.randomness :=
  ⟨rfl, rfl⟩

end Readings

section Creation

variable (cfg : Config) (sats : Text → Text)

structure CreateBody where
  amount : Option Field
  secret : Option Field

/-- A field that is neither missing nor falsy. -/
def present : Option Field → Bool
  | some (.text value) => !value.isEmpty
  | some (.number .nan) => false
  | some (.number value) => value != .finite 0
  | none => false

def amountFloat : Option Field → Double
  | some (.text value) => Double.parseFloat value
  | some (.number value) => Double.parseFloat value.toText
  | none => .nan

/-- isNaN(amountFloat) || amountFloat <= 0 -/
def unusable : Double → Bool
  | .finite value => value ≤ 0
  | .infinite negative => negative
  | .nan => true

/-- commitment/create: the commitment and the nullifier hash that it answers. -/
def createCommitment (body : CreateBody) : Except Rejection (Text × Text) := do
  refuse (!present body.amount || !present body.secret) 400
    "Missing required fields: amount and secret"
  let amountFloat := amountFloat body.amount
  refuse (unusable amountFloat) 400 "Invalid amount: must be a positive number"
  refuse (!isAllowedDenomination amountFloat) 400
    ("Amount " ++ String.ofList amountFloat.toText ++ " BTC is not a valid denomination. " ++
      "Allowed: 0.0001, 0.001, 0.01, 0.1 BTC")
  match body.secret with
  | some (.text secret) =>
      refuse (secret.length < 10) 400 "Invalid secret: must be a hex string"
      let commitment ← internalError
        (generateCommitmentBy cfg.crypto sats amountFloat.toText secret)
      let nullifierHash ← internalError (generateNullifier cfg.crypto commitment secret)
      pure (commitment, nullifierHash)
  | _ => throw ⟨400, "Invalid secret: must be a hex string"⟩

/-- `preparedRow` over a reading of the amount. -/
def preparedRowBy (moment : Moment) (preparing : Preparing) : Except String VaultRow := do
  let random := moment.random
  let salt := generateSalt random
  let randomness := generateRandomness random
  let commitment ← generateCommitmentBy cfg.crypto sats (toText 10 preparing.amount) randomness
  let nullifierHash ← generateNullifier cfg.crypto commitment randomness
  pure
    { id := random.uuid
      ownerAddress := preparing.ownerAddress
      commitment
      encryptedAmount := encryptAmount cfg.crypto random.iv preparing.amount salt
      salt
      randomnessHint := encryptRandomness cfg.crypto random.iv2 randomness salt
      lockDurationDays := preparing.lockDays
      createdAt := moment.nowSecs
      unlockAt := moment.nowSecs + preparing.lockDays * 86400
      status := .pending
      nullifierHash := some nullifierHash }

example : preparedRowBy cfg doubleSats = preparedRow cfg := rfl

/-- How a vault comes to be: prepare-deposit makes its secret, or the user brings one to
commitment/create and then posts the answer with the same amount to spv-deposit. -/
inductive Origin where
  | prepared (preparing : Preparing) (moment : Moment)
  | posted (amount secret : Text) (body : SpvDepositBody) (txHash : Text) (moment : Moment)

namespace Origin

def vaultId : Origin → Text
  | .prepared _ moment => moment.random.uuid
  | .posted _ _ body _ _ => body.vaultId.getD []

/-- The secret that the vault's user holds. -/
def secret : Origin → Text
  | .prepared _ moment => generateRandomness moment.random
  | .posted _ secret _ _ _ => secret

/-- The body of spv-deposit with what commitment/create has answered. -/
def fill (amount commitment nullifierHash : Text) (body : SpvDepositBody) : SpvDepositBody :=
  { body with
    commitment
    nullifierHash := some nullifierHash
    amount := some (Double.parseFloat amount) }

end Origin

/-- A vault is created: it is stored under an id that no vault has. -/
inductive Creates (db : Db) : Origin → VaultRow → Db → Prop where
  | prepared {preparing : Preparing} {moment : Moment} {row : VaultRow} {db' : Db}
      (made : preparedRowBy cfg sats moment preparing = .ok row)
      (stored : insertPrepared row db = .ok db') :
      Creates db (.prepared preparing moment) row db'
  | posted {amount secret commitment nullifierHash vaultId txHash : Text} {body : SpvDepositBody}
      {moment : Moment} {wei : Int} {db' : Db}
      (answered : createCommitment cfg sats ⟨some (.text amount), some (.text secret)⟩ =
        .ok (commitment, nullifierHash))
      (accepted : (Origin.fill amount commitment nullifierHash body).accepted = true)
      (stores : (Origin.fill amount commitment nullifierHash body).stores =
        some (vaultId, nullifierHash))
      (converted : amountInWei (some (Double.parseFloat amount)) = some wei)
      (fresh : vaultById db vaultId = none)
      (stored : storeSpv (spvRow cfg moment (Origin.fill amount commitment nullifierHash body)
        vaultId nullifierHash txHash wei) db = .ok db') :
      Creates db (.posted amount secret body txHash moment)
        (spvRow cfg moment (Origin.fill amount commitment nullifierHash body) vaultId
          nullifierHash txHash wei) db'

end Creation

section Hashing

variable {crypto : Crypto} {sats : Text → Text}

theorem pedersenArg_toText {n : Int} {x : Felt} :
    pedersenArg (toText 10 n) = .ok x ↔ (x.val : Int) = n := by
  rw [pedersenArg_ok, bigInt_toText, Option.some.injEq, eq_comm]

theorem satsOf_toText (n : Int) : satsOf (toText 10 n) = some (100000000 * n) := by
  have rounded : ((n : ℚ) * 100000000 + 1 / 2).floor = 100000000 * n := by
    show ⌊(n : ℚ) * 100000000 + 1 / 2⌋ = 100000000 * n
    rw [Int.floor_eq_iff]
    push_cast
    constructor <;> linarith
  rw [satsOf, Double.decimalValue_toText, Option.map_some, rounded]

theorem generateCommitmentBy_exact {amountBTC secret commitment : Text} :
    generateCommitmentBy crypto exactSats amountBTC secret = .ok commitment ↔
      ∃ x key, satsOf amountBTC = some (x.val : Int) ∧ pedersenArg secret = .ok key ∧
        commitment = hexText (crypto.pedersen x key).val := by
  unfold generateCommitmentBy exactSats
  cases satsOf amountBTC with
  | none =>
      have unread : Double.parsesInt ['N', 'a', 'N'] = false := rfl
      simp [unread]
  | some n =>
      simp only [Double.parsesInt_toText, if_true, computePedersenHash_ok, pedersenArg_toText,
        Option.some.injEq]
      exact exists_congr fun x => exists_congr fun key => and_congr_left fun _ => eq_comm

theorem orFalse_hexText {x y : Felt} :
    orFalse (timingSafeEqual (hexText x.val) (hexText y.val)) = true ↔ x = y := by
  rw [timingSafeEqual_hexText, orFalse, decide_eq_true_eq]

/-- The nullifier that is recomputed is the one that was stored. -/
theorem verifyNullifier_own {commitment secret nullifierHash : Text}
    (made : generateNullifier crypto commitment secret = .ok nullifierHash) :
    verifyNullifier crypto commitment secret nullifierHash = true := by
  rw [verifyNullifier, made, ok_bind]
  obtain ⟨x, key, -, -, rfl⟩ := computePedersenHash_ok.mp made
  exact orFalse_hexText.mpr rfl

/-- The commitment that is recomputed from the same text is the one that was stored. -/
theorem verifyCommitmentBy_own {amount secret commitment : Text}
    (made : generateCommitmentBy crypto sats amount secret = .ok commitment) :
    verifyCommitmentBy crypto sats amount secret commitment = true := by
  rw [verifyCommitmentBy, made, ok_bind]
  unfold generateCommitmentBy at made
  split_ifs at made
  obtain ⟨x, key, -, -, rfl⟩ := computePedersenHash_ok.mp made
  exact orFalse_hexText.mpr rfl

/-- A hash of an amount in satoshis against one recomputed from the amount in another unit. -/
theorem verifyCommitmentBy_exact {secret : Text} {n : Int} {x key : Felt}
    (read : pedersenArg secret = .ok key) :
    verifyCommitmentBy crypto exactSats (toText 10 n) secret
        (hexText (crypto.pedersen x key).val) = true ↔
      ∃ y : Felt, (y.val : Int) = 100000000 * n ∧
        crypto.pedersen x key = crypto.pedersen y key := by
  unfold verifyCommitmentBy
  cases made : generateCommitmentBy crypto exactSats (toText 10 n) secret with
  | error message =>
      constructor
      · intro no
        cases no
      · rintro ⟨y, value, _⟩
        have known : generateCommitmentBy crypto exactSats (toText 10 n) secret =
            .ok (hexText (crypto.pedersen y key).val) := generateCommitmentBy_exact.mpr
          ⟨y, key, (satsOf_toText n).trans (congrArg some value.symm), read, rfl⟩
        rw [made] at known
        cases known
  | ok commitment =>
      obtain ⟨y, key', value, read', rfl⟩ := generateCommitmentBy_exact.mp made
      cases read.symm.trans read'
      rw [satsOf_toText, Option.some.injEq] at value
      rw [ok_bind, orFalse_hexText]
      constructor
      · intro same
        exact ⟨y, value.symm, same.symm⟩
      · rintro ⟨y', value', same⟩
        have equal : y' = y := Fin.ext (by omega)
        rw [same, equal]

end Hashing

section Recomputed

variable {cfg : Config} {sats : Text → Text}

theorem createCommitment_ok {amount secret commitment nullifierHash : Text}
    (answered : createCommitment cfg sats ⟨some (.text amount), some (.text secret)⟩ =
      .ok (commitment, nullifierHash)) :
    generateCommitmentBy cfg.crypto sats (Double.parseFloat amount).toText secret =
        .ok commitment ∧
      generateNullifier cfg.crypto commitment secret = .ok nullifierHash := by
  simp only [createCommitment, amountFloat, bind_eq_ok, internalError_ok, pure_eq_ok,
    Except.ok.injEq, Prod.mk.injEq] at answered
  obtain ⟨_, _, _, _, _, _, _, _, _, made, _, spent, rfl, rfl⟩ := answered
  exact ⟨made, spent⟩

/-- The hash that commitment/create makes of the satoshis is also that of 10^8 times the wei that
spv-deposit stores for the same text. -/
def SameHash (crypto : Crypto) (amount secret : Text) : Prop :=
  ∃ (x y key : Felt) (wei : Int), satsOf (Double.parseFloat amount).toText = some (x.val : Int) ∧
    amountInWei (some (Double.parseFloat amount)) = some wei ∧
    (y.val : Int) = 100000000 * wei ∧ pedersenArg secret = .ok key ∧
    crypto.pedersen x key = crypto.pedersen y key

/-- The vaults whose amount is read in one unit throughout, and those of collisions. -/
def Origin.Agrees (crypto : Crypto) : Origin → Prop
  | .prepared _ _ => True
  | .posted amount secret _ _ _ => SameHash crypto amount secret

def Passes (crypto : Crypto) (sats : Text → Text) (vault : VaultRow) (secret : Text) : Prop :=
  commitmentMatch crypto sats vault secret = true ∧ nullifierMatch crypto vault secret = true

theorem preparedRowBy_passes {moment : Moment} {preparing : Preparing} {row : VaultRow}
    (made : preparedRowBy cfg sats moment preparing = .ok row) :
    row.id = moment.random.uuid ∧ row.nullifierHash ≠ none ∧
      Passes cfg.crypto sats row (generateRandomness moment.random) := by
  simp only [preparedRowBy, bind_eq_ok, pure_eq_ok, Except.ok.injEq] at made
  obtain ⟨commitment, hashed, nullifierHash, spent, rfl⟩ := made
  refine ⟨rfl, Option.some_ne_none _, ?_, verifyNullifier_own spent⟩
  simp only [commitmentMatch, decryptAmount_encryptAmount]
  exact verifyCommitmentBy_own hashed

theorem stores_vaultId {body : SpvDepositBody} {vaultId nullifierHash : Text}
    (stores : body.stores = some (vaultId, nullifierHash)) : body.vaultId = some vaultId := by
  unfold SpvDepositBody.stores at stores
  split at stores
  · next own _ named _ =>
    split_ifs at stores
    cases stores
    exact named
  · cases stores

/-- What a created vault is, whichever way it came to be. -/
structure Facts (cfg : Config) (db db' : Db) (origin : Origin) (row : VaultRow) : Prop where
  rows : db'.vaults.rows = db.vaults.rows ++ [row]
  id : row.id = origin.vaultId
  nullified : row.nullifierHash ≠ none
  passes : Passes cfg.crypto exactSats row origin.secret ↔ origin.Agrees cfg.crypto

theorem spvRow_passes {body : SpvDepositBody} {secret vaultId nullifierHash txHash : Text}
    {moment : Moment} {wei : Int} {x key : Felt} (read : pedersenArg secret = .ok key)
    (hashed : body.commitment = hexText (cfg.crypto.pedersen x key).val)
    (spent : generateNullifier cfg.crypto body.commitment secret = .ok nullifierHash) :
    Passes cfg.crypto exactSats (spvRow cfg moment body vaultId nullifierHash txHash wei) secret ↔
      ∃ y : Felt, (y.val : Int) = 100000000 * wei ∧
        cfg.crypto.pedersen x key = cfg.crypto.pedersen y key := by
  have nullified : nullifierMatch cfg.crypto
      (spvRow cfg moment body vaultId nullifierHash txHash wei) secret = true :=
    verifyNullifier_own spent
  rw [Passes, nullified]
  simp only [commitmentMatch, spvRow, decryptAmount_encryptAmount, hashed,
    verifyCommitmentBy_exact read, and_true]

theorem creates_passes {db db' : Db} {origin : Origin} {row : VaultRow}
    (creates : Creates cfg exactSats db origin row db') : Facts cfg db db' origin row := by
  cases creates with
  | prepared made stored =>
      obtain ⟨own, nullified, passes⟩ := preparedRowBy_passes made
      exact ⟨(insertPrepared_ok stored).1, own, nullified, fun _ => trivial, fun _ => passes⟩
  | @posted amount secret commitment nullifierHash vaultId txHash body moment wei db' answered _
      stores converted fresh stored =>
      obtain ⟨hashed, spent⟩ := createCommitment_ok answered
      obtain ⟨x, key, value, read, told⟩ := generateCommitmentBy_exact.mp hashed
      have filled : (Origin.fill amount commitment nullifierHash body).vaultId = some vaultId :=
        stores_vaultId stores
      have own : body.vaultId = some vaultId := filled
      refine ⟨?_, ?_, Option.some_ne_none _, ?_⟩
      · rcases (storeSpv_ok stored).1 with ⟨_, rows⟩ | ⟨known, _⟩
        · exact rows
        · have missing : vaultById db vaultId = none := fresh
          exact absurd (missing ▸ known) (by simp)
      · rw [Origin.vaultId, own]
        rfl
      · rw [Origin.secret, Origin.Agrees, SameHash]
        refine Iff.trans (spvRow_passes read told spent) ?_
        constructor
        · rintro ⟨y, scaled, same⟩
          exact ⟨x, y, key, wei, value, converted, scaled, read, same⟩
        · rintro ⟨x', y, key', wei', value', converted', scaled, read', same⟩
          cases converted.symm.trans converted'
          cases read.symm.trans read'
          have equal : x = x' := Fin.ext (by simpa using value.symm.trans value')
          exact ⟨y, scaled, equal ▸ same⟩

end Recomputed

section Runs

theorem Passes.kept {crypto : Crypto} {sats : Text → Text} {row row' : VaultRow} {secret : Text}
    (nullified : row.nullifierHash ≠ none) (kept : Kept row row') :
    Passes crypto sats row' secret ↔ Passes crypto sats row secret := by
  obtain ⟨own, told⟩ := Option.ne_none_iff_exists'.mp nullified
  rw [Passes, Passes, commitmentMatch, commitmentMatch, nullifierMatch, nullifierMatch,
    kept.same.encryptedAmount, kept.same.salt, kept.same.commitment, kept.nullifier own told, told]

variable {env : Environment} {first before start s : State}

/-- The state after the turn that stores a new vault; its handler may have ended. -/
structure Created (env : Environment) (sats : Text → Text) (before : State) (origin : Origin)
    (row : VaultRow) (start : State) : Prop where
  creates : Creates env.toConfig sats before.db origin row start.db
  tasks : ∀ id, start.tasks id = before.tasks id ∨ start.tasks id = none
  issued : start.issued = before.issued

theorem Created.consistent {origin : Origin} {row : VaultRow}
    (created : Created env exactSats before origin row start) (consistent : Consistent before) :
    Consistent start := by
  have keeps : Keeps before.db start.db := by
    intro old member
    refine ⟨old, ?_, SameVault.refl old, fun _ told => told⟩
    rw [(creates_passes created.creates).rows]
    exact List.mem_append_left _ member
  constructor
  · intro id request task subject waits told
    rcases created.tasks id with same | ended
    · exact (consistent.tasks id request task subject (same ▸ waits) told).kept keeps
    · rw [ended] at waits
      cases waits
  · intro token issued
    exact (consistent.issued token (created.issued ▸ issued)).kept keeps

/-- In every state of every run after its creation a vault passes the two checks with its own
secret exactly when its amount was read in one unit, or the hashes collide. -/
theorem own_secret_passes_iff {origin : Origin} {row : VaultRow} (starts : Starts first)
    (untold : first.issued = []) (reached : Reaches env (fun _ _ => True) first before)
    (created : Created env exactSats before origin row start)
    (run : Reaches env (fun _ _ => True) start s) :
    ∃ vault, vaultById s.db origin.vaultId = some vault ∧
      (Passes env.crypto exactSats vault origin.secret ↔ origin.Agrees env.crypto) := by
  have consistent : Consistent before :=
    reached.invariant (starts_consistent starts untold) fun _ _ _ held _ stepped =>
      step_consistent held stepped
  have facts := creates_passes created.creates
  have member : row ∈ start.db.vaults.rows := by
    rw [facts.rows]
    exact List.mem_append_right _ List.mem_cons_self
  obtain ⟨vault, member', kept⟩ := run_kept (created.consistent consistent) member run
  have named : vault.id = origin.vaultId := kept.same.id.trans facts.id
  exact ⟨vault, vaultById_of_mem member' named,
    (Passes.kept facts.nullified kept).trans facts.passes⟩

end Runs

section Samples

/-- A Pedersen hash without a collision between two left arguments. -/
def additiveCrypto : Crypto := { plainCrypto with pedersen := fun x y => x + y }

def additiveMode : Environment := { covenantMode with crypto := additiveCrypto }

/-- 0.1 BTC through commitment/create and spv-deposit. -/
def postedOrigin : Origin :=
  .posted ['0', '.', '1'] ['0', 'x', '1', '2', '3', '4', '5', '6', '7', '8'] sampleDeposit
    (sampleHash '3') (sampleMoment ['d'])

/-- The body that the user posts with the two hashes of commitment/create. -/
def postedBody : SpvDepositBody :=
  Origin.fill ['0', '.', '1'] (hexText 315419896) (hexText 620839792) sampleDeposit

def postedRow : VaultRow :=
  spvRow additiveMode.toConfig (sampleMoment ['d']) postedBody nilUuid (hexText 620839792)
    (sampleHash '3') 100000000000000000

/-- The verifier reads the stored wei as BTC, so the secret of the deposit fails its check, in exact
arithmetic as in that of the code. -/
theorem posted_fails : ∃ db, Creates additiveMode.toConfig exactSats Database.empty postedOrigin
      postedRow db ∧
    Creates additiveMode.toConfig doubleSats Database.empty postedOrigin postedRow db ∧
    ¬ Passes additiveMode.crypto exactSats postedRow postedOrigin.secret ∧
    (checkVault additiveMode.crypto db 0 ⟨nilUuid, postedOrigin.secret, sampleHash '1'⟩
      postedRow).commitmentMatch = false := by
  have answered : ∀ sats, (createCommitment additiveMode.toConfig sats
      ⟨some (.text ['0', '.', '1']), some (.text postedOrigin.secret)⟩).toOption =
        some (hexText 315419896, hexText 620839792) →
      createCommitment additiveMode.toConfig sats
        ⟨some (.text ['0', '.', '1']), some (.text postedOrigin.secret)⟩ =
          .ok (hexText 315419896, hexText 620839792) := by
    intro sats told
    cases answer : createCommitment additiveMode.toConfig sats
        ⟨some (.text ['0', '.', '1']), some (.text postedOrigin.secret)⟩ with
    | error rejection =>
        rw [answer] at told
        cases told
    | ok hashes =>
        rw [answer] at told
        cases told
        rfl
  have accepts : (storeSpv postedRow Database.empty).toOption.isSome = true := by decide +kernel
  cases stored : storeSpv postedRow Database.empty with
  | error message =>
      rw [stored] at accepts
      cases accepts
  | ok db =>
      have accepted : postedBody.accepted = true := by decide +kernel
      have stores : postedBody.stores = some (nilUuid, hexText 620839792) := by decide +kernel
      have converted : amountInWei (some (Double.parseFloat ['0', '.', '1'])) =
          some 100000000000000000 := by decide +kernel
      refine ⟨db, .posted (answered _ ?_) accepted stores converted rfl stored,
        .posted (answered _ ?_) accepted stores converted rfl stored, fun passes => ?_, ?_⟩
      · decide +kernel
      · decide +kernel
      · have fails : commitmentMatch additiveMode.crypto exactSats postedRow postedOrigin.secret =
            false := by decide +kernel
        rw [Passes, fails] at passes
        cases passes.1
      · have coded : commitmentMatch additiveMode.crypto doubleSats postedRow postedOrigin.secret =
            false := by decide +kernel
        exact coded

/-- 100000 satoshis through prepare-deposit. -/
def preparedOrigin : Origin := .prepared ⟨sampleHash '1', 100000, 30⟩ (sampleMoment ['v'])

theorem prepared_stored : ∃ row db,
    preparedRowBy covenantMode.toConfig exactSats (sampleMoment ['v'])
      ⟨sampleHash '1', 100000, 30⟩ = .ok row ∧ insertPrepared row Database.empty = .ok db := by
  have ran : ((preparedRowBy covenantMode.toConfig exactSats (sampleMoment ['v'])
      ⟨sampleHash '1', 100000, 30⟩).bind fun row =>
        insertPrepared row Database.empty).toOption.isSome = true := by decide +kernel
  cases made : preparedRowBy covenantMode.toConfig exactSats (sampleMoment ['v'])
      ⟨sampleHash '1', 100000, 30⟩ with
  | error message =>
      rw [made] at ran
      cases ran
  | ok row =>
      rw [made, Except.bind] at ran
      cases stored : insertPrepared row Database.empty with
      | error message =>
          rw [stored] at ran
          cases ran
      | ok db => exact ⟨row, db, rfl, stored⟩

/-- A vault of prepare-deposit passes with the secret that was made for it. -/
theorem prepared_passes : ∃ row start vault,
    Created covenantMode exactSats (boot sampleGenesis) preparedOrigin row start ∧
      vaultById start.db preparedOrigin.vaultId = some vault ∧
      Passes covenantMode.crypto exactSats vault preparedOrigin.secret := by
  obtain ⟨row, db, made, stored⟩ := prepared_stored
  let start : State := { boot sampleGenesis with db }
  have created : Created covenantMode exactSats (boot sampleGenesis) preparedOrigin row start :=
    ⟨.prepared made stored, fun _ => Or.inl rfl, rfl⟩
  have starts : Starts (boot sampleGenesis) := ⟨fun _ => rfl, rfl⟩
  obtain ⟨vault, found, passes⟩ :=
    own_secret_passes_iff starts rfl GuardedRun.Reaches.start created GuardedRun.Reaches.start
  exact ⟨row, start, vault, created, found, passes.mpr trivial⟩

end Samples

end PrivateBtc.Backend.CommitmentUnits
