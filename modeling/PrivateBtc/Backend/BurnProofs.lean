/- PrivateBtc/Backend/BurnProofs
   digest: Burn proofs, made from a receipt or read back, agree with their authorization at zero only. -/

import PrivateBtc.Backend.StarknetProof
import PrivateBtc.Backend.VaultEvents
import PrivateBtc.Backend.Withdrawals

set_option autoImplicit false
set_option relaxedAutoImplicit false

namespace PrivateBtc.Backend.BurnProofs

open Library Library.JsText Library.Outcome
open Authorizations Database Starknet StarknetProof VaultEvents
open Calldata (feltOf)
open Contracts.Corelib (ContractAddress Felt)
open Contracts.Hashing (HashFunction)
open Contracts.Vault (Call Event World WithdrawArgs execute)
open Withdrawals (actualSats)

structure BurnEvent where
  amount : Text
  nullifier : Text
  recipient : Text

/-- `text || fallback` -/
def orElse (text : Option Text) (fallback : Text) : Text :=
  (text.filter fun t => !t.isEmpty).getD fallback

/-- What the service takes from Node, elliptic and its environment. -/
structure Service where
  crypto : Crypto
  keys : Keys
  VAULT_CONTRACT_ADDRESS : Option Text

variable (S : Service)

def isBurnEvent (event : ChainEvent) : Bool :=
  event.keys[0]?.any (includes ['B', 'u', 'r', 'n']) ||
    some event.fromAddress == S.VAULT_CONTRACT_ADDRESS

def extractBurnEvent (receipt : TransactionReceipt) : Option BurnEvent :=
  (receipt.events.find? (isBurnEvent S)).map fun burnEvent =>
    { amount := orElse burnEvent.data[1]? ['0']
      nullifier := orElse burnEvent.keys[1]? (orElse burnEvent.data[2]? ['0', 'x', '0'])
      recipient := orElse burnEvent.data[0]? ['0', 'x', '0'] }

def generateBurnProof (db : Db) (withdrawalTxHash bitcoinAddress : Text)
    (reply : Except String TransactionReceipt) : Except String StarknetBurnProof :=
  match getTransactionReceipt withdrawalTxHash reply with
  | .error error => .error error.message
  | .ok receipt =>
      if !receipt.succeeded then .error "Transaction not finalized: REVERTED"
      else
        match extractBurnEvent S receipt with
        | none => .error "No burn event found in transaction"
        | some burnEvent => do
            let amount ← (Quantity.string burnEvent.amount).toBigInt
            let nullifier := burnEvent.nullifier
            if (db.authorizations.find? fun row =>
                row.nullifierHash == nullifier && row.status == .completed).isSome then
              .error "Nullifier already used - cannot generate proof for spent withdrawal"
            else
              let proof : ProofData :=
                ⟨withdrawalTxHash, .bigint amount, nullifier, bitcoinAddress,
                  .bigint receipt.blockNumber⟩
              let serialized ← serializeProofData S.crypto proof
              let signature ← signProof S.crypto S.keys serialized.buffer
              pure ⟨proof, signature⟩

def stringified : Quantity → Quantity
  | .bigint value => .string (toText 10 value)
  | .string text => .string text

/-- `JSON.stringify` with its replacer, parsed again. -/
def readBack (proof : StarknetBurnProof) : StarknetBurnProof :=
  { proof with
    amount := stringified proof.amount
    blockNumber := stringified proof.blockNumber }

/-- A call of `getProofForAuthorization`: before the node answers, and after. -/
inductive Phase where
  | waiting (authorizationId starknetTxHash bitcoinAddress : Text)
  | ended (authorizationId : Text) (outcome : Except String StarknetBurnProof)

/-- The database, the parsed rows of `starknet_proofs`, and the calls. -/
structure State where
  db : Db
  starknetProofs : Text → Option StarknetBurnProof
  calls : List Phase

/-- A call comes, the node answers one, or the rest of the backend writes to the database; a
statement on the cache that throws is caught. -/
inductive Label where
  | call (authorizationId : Text) (readable : Bool)
  | answer (id : Nat) (reply : Except String TransactionReceipt) (writable : Bool)
  | write (db : Db)

def getProofForAuthorization (s : State) (authorizationId : Text) (readable : Bool) : Phase :=
  match getAuthorizationById s.db authorizationId with
  | none => .ended authorizationId (.error "Authorization not found")
  | some auth =>
      match if readable then s.starknetProofs authorizationId else none with
      | some cached => .ended authorizationId (.ok cached)
      | none => .waiting authorizationId auth.starknetTxHash auth.bitcoinAddress

/-- The rest of a call, after its `await`. -/
def afterReceipt (s : State) (id : Nat) (authorizationId starknetTxHash bitcoinAddress : Text)
    (reply : Except String TransactionReceipt) (writable : Bool) : State :=
  match generateBurnProof S s.db starknetTxHash bitcoinAddress reply with
  | .error message => { s with calls := s.calls.set id (.ended authorizationId (.error message)) }
  | .ok proof =>
      { s with
        starknetProofs :=
          if writable then Function.update s.starknetProofs authorizationId (some (readBack proof))
          else s.starknetProofs
        calls := s.calls.set id (.ended authorizationId (.ok proof)) }

def step (s : State) : Label → Option State
  | .call authorizationId readable =>
      some { s with calls := s.calls ++ [getProofForAuthorization s authorizationId readable] }
  | .answer id reply writable =>
      match s.calls[id]? with
      | some (.waiting authorizationId starknetTxHash bitcoinAddress) =>
          some (afterReceipt S s id authorizationId starknetTxHash bitcoinAddress reply writable)
      | _ => none
  | .write db => some { s with db }

/-- A withdrawal that succeeded on chain, the events of its transaction, and the authorization
created for it. -/
structure Burn where
  sha : HashFunction
  before : World
  after : World
  caller : ContractAddress
  args : WithdrawArgs
  executed : execute sha before (.withdraw caller args) = .ok after
  supply : args.amount.val ≤ 21000000000000000000000000
  selectors : Selectors
  emissions : List (Emission before.address)
  emitted : after.vault.events = before.vault.events ++ ownEvents emissions
  configured : ∀ text, S.VAULT_CONTRACT_ADDRESS = some text → feltOf text = some before.address
  params : AuthorizationParams
  id : Text
  nowSecs : Nat
  db : Db
  authorized : Db
  created : createAuthorization params id nowSecs db = .ok authorized
  amount : params.amountSats = actualSats args.amount.val
  nullifier : feltOf params.nullifierHash = some args.nullifier
  hash : validateTxHashFormat (paddedHash params.starknetTxHash) = true

variable {S}

/-- The authorization has just been created; nothing is cached for it. -/
structure Burn.Starts (burn : Burn S) (s : State) : Prop where
  db : s.db = burn.authorized
  uncached : s.starknetProofs burn.id = none
  calls : s.calls = []

/-- The backend keeps what authorizations were created for; the node answers for this transaction
with its events, in a block that may be unknown at first. -/
def Burn.Allowed (burn : Burn S) (s : State) : Label → Prop
  | .call _ _ => True
  | .answer id reply _ => ∀ receipt starknetTxHash bitcoinAddress, reply = .ok receipt →
      s.calls[id]? = some (.waiting burn.id starknetTxHash bitcoinAddress) →
      ∃ block : UInt64, receipt = receiptOf burn.selectors block.toNat burn.emissions
  | .write db => Extends s.db db

/-- The step ends a call for this authorization: its proof is read back, or made. -/
inductive Burn.Ends (burn : Burn S) (s : State) : Label → Nat → Prop where
  | readBack {row : StarknetBurnProof} (stored : s.starknetProofs burn.id = some row) :
      Burn.Ends burn s (.call burn.id true) s.calls.length
  | made {k : Nat} {starknetTxHash bitcoinAddress : Text} {receipt : TransactionReceipt}
      {writable : Bool}
      (waiting : s.calls[k]? = some (.waiting burn.id starknetTxHash bitcoinAddress)) :
      Burn.Ends burn s (.answer k (.ok receipt) writable) k

def Bigints (proof : StarknetBurnProof) : Prop :=
  ∃ amount block, proof.amount = .bigint amount ∧ proof.blockNumber = .bigint block

/-- The proof is for this nullifier and for the satoshis of the authorization; it is one that was
made, or that one read back, and both are written as the same 112 bytes. -/
structure Burn.Matches (burn : Burn S) (s : State) (proof : StarknetBurnProof) : Prop where
  nullifier : numberOf proof.nullifier = some burn.args.nullifier.val
  amount : proof.amount.toBigInt = .ok burn.params.amountSats
  bytes : ∃ (k : Nat) (fresh : StarknetBurnProof) (written : SerializedProof),
    s.calls[k]? = some (.ended burn.id (.ok fresh)) ∧ Bigints fresh ∧
      (proof = fresh ∨ proof = readBack fresh) ∧
      serializeProofData S.crypto fresh.toProofData = .ok written ∧
      serializeProofData S.crypto (readBack fresh).toProofData = .ok written ∧
      written.buffer.length = 112

/-- The environment spells the vault as the node does and has a signing key. -/
structure Ready (S : Service) (vault : ContractAddress) : Prop where
  spelled : S.VAULT_CONTRACT_ADDRESS = some (hexText vault.val)
  key : S.keys.SEQUENCER_PRIVATE_KEY ≠ []

/-- A completed authorization has the nullifier in the node's spelling. -/
def Spent (db : Db) (nullifier : Felt) : Prop :=
  ∃ row ∈ db.authorizations.rows, row.nullifierHash = hexText nullifier.val ∧
    row.status = .completed

/-- Nothing is withdrawn; a proof that is still to be made needs a ready service as well, and a
nullifier that is not spent. -/
def Burn.Idle (burn : Burn S) (s : State) : Label → Prop
  | .answer _ _ _ =>
      burn.args.amount = 0 ∧ Ready S burn.before.address ∧ ¬ Spent s.db burn.args.nullifier
  | _ => burn.args.amount = 0

theorem actualSats_lt {n : Nat} (positive : 0 < n) : actualSats n < n := by
  have most : (1 : ℚ) ≤ n := by exact_mod_cast positive
  have plain : |((n : Int) : ℚ)| = n := by
    rw [Int.cast_natCast, abs_of_nonneg (Nat.cast_nonneg n)]
  have below : ((actualSats n : Int) : ℚ) < n := by
    refine Double.floored_lt (by linarith) ?_
    intro sats divided
    obtain ⟨number, rounded, sats_le⟩ := Double.divBy_near (by norm_num) divided
    have number_le := Double.ofRat_near rounded
    rw [plain] at number_le
    calc sats ≤ |sats| := le_abs_self sats
      _ < n := by linarith
  exact_mod_cast below

/-- The satoshis of an amount are its wei at zero only. -/
theorem actualSats_eq_iff {n : Nat} : actualSats n = n ↔ n = 0 := by
  constructor
  · intro same
    by_contra nonzero
    have below := actualSats_lt (Nat.pos_of_ne_zero nonzero)
    omega
  · rintro rfl
    decide +kernel

section Receipt

variable {vault : ContractAddress} (selectors : Selectors)

/-- No felt in hex has the letters of the event's name. -/
theorem not_burn_name (n : Nat) : includes ['B', 'u', 'r', 'n'] (hexText n) = false := by
  rw [Bool.eq_false_iff]
  intro found
  have letter := mem_of_includes found 'u' (by decide)
  have digits : ∀ c ∈ Nat.toDigits 16 n, c ≠ 'u' := forall_hex (by decide) n
  rcases List.mem_cons.mp letter with same | letter
  · cases same
  rcases List.mem_cons.mp letter with same | letter
  · cases same
  · exact digits _ letter rfl

/-- Only the vault's own events pass, where the environment spells the vault as the node does. -/
theorem isBurnEvent_emission
    (configured : ∀ text, S.VAULT_CONTRACT_ADDRESS = some text → feltOf text = some vault)
    (emission : Emission vault) :
    isBurnEvent S (emission.emitted selectors).rpc =
      (decide (S.VAULT_CONTRACT_ADDRESS = some (hexText vault.val)) && emission.own?.isSome) := by
  have unnamed : ∀ emitted : Emitted,
      emitted.rpc.keys[0]?.any (includes ['B', 'u', 'r', 'n']) = false := by
    intro emitted
    rcases emitted with ⟨fromAddress, _ | ⟨key, keys⟩, data⟩
    · rfl
    · exact not_burn_name key.val
  rw [isBurnEvent, unnamed, Bool.false_or]
  cases emission with
  | own event =>
      rw [Bool.eq_iff_iff, beq_iff_eq, Emission.own?, Option.isSome_some, Bool.and_true,
        decide_eq_true_eq, eq_comm]
      rfl
  | other emitted apart =>
      rw [Emission.own?, Option.isSome_none, Bool.and_false, beq_eq_false_iff_ne]
      intro same
      have named := configured _ same.symm
      rw [show (Emission.other emitted apart : Emission vault).emitted selectors = emitted from rfl,
        Emitted.rpc, feltOf_hexText, Option.some.injEq] at named
      exact apart named

theorem extractBurnEvent_receipt
    (configured : ∀ text, S.VAULT_CONTRACT_ADDRESS = some text → feltOf text = some vault)
    (block : Nat) {emissions : List (Emission vault)} {nullifier : Felt}
    {recipient : ContractAddress} {amount : Contracts.Corelib.U256}
    (own : ownEvents emissions = [.withdrawal nullifier recipient amount]) :
    extractBurnEvent S (receiptOf selectors block emissions) =
      if S.VAULT_CONTRACT_ADDRESS = some (hexText vault.val) then
        some ⟨hexText (serialized (amount.val % 2 ^ 128)).val, hexText nullifier.val,
          hexText recipient.val⟩
      else none := by
  rw [extractBurnEvent, receiptOf]
  dsimp only
  rw [find_own selectors emissions (isBurnEvent_emission selectors configured), own]
  by_cases spelled : S.VAULT_CONTRACT_ADDRESS = some (hexText vault.val)
  · rw [if_pos (decide_eq_true spelled), if_pos spelled]
    rfl
  · rw [if_neg (by simpa using spelled), if_neg spelled]
    rfl

end Receipt

section Bytes

variable {crypto : Crypto}

theorem copy_length {bytes buffer : List UInt8} {offset : Nat} (inside : offset ≤ buffer.length) :
    (copy bytes buffer offset).length = buffer.length := by
  rw [copy, List.length_append, List.length_append, List.length_take, List.length_take,
    List.length_drop]
  omega

theorem writeBigUInt64LE_ok {buffer buffer' : List UInt8} {value : Int} {offset : Nat}
    (written : writeBigUInt64LE buffer value offset = .ok buffer')
    (inside : offset ≤ buffer.length) :
    0 ≤ value ∧ value < 2 ^ 64 ∧ buffer'.length = buffer.length := by
  unfold writeBigUInt64LE at written
  split_ifs at written with bounds
  cases written
  exact ⟨bounds.1, bounds.2, copy_length inside⟩

/-- What is written has 112 bytes and an amount of 64 bits. -/
theorem serializeProofData_bounds {proof : ProofData} {written : SerializedProof}
    (done : serializeProofData crypto proof = .ok written) :
    (∃ amount : Int, proof.amount.toBigInt = .ok amount ∧ 0 ≤ amount ∧ amount < 2 ^ 64) ∧
      written.buffer.length = 112 := by
  simp only [serializeProofData, bind_eq_ok, pure_eq_ok, Except.ok.injEq] at done
  obtain ⟨amount, read, buffer, first, block, -, buffer', second, rfl⟩ := done
  have hash_length : (copy (hashBytes proof.txHash) (List.replicate 112 0) 0).length = 112 := by
    rw [copy_length (Nat.zero_le _), List.length_replicate]
  obtain ⟨nonneg, below, length⟩ := writeBigUInt64LE_ok first (by omega)
  have spent_length : (copy (hashBytes proof.nullifier) buffer (0 + 32 + 8)).length = 112 := by
    rw [copy_length (by omega)]
    omega
  have recipient_length : (copy (addressToScriptHash crypto proof.recipientBtc)
      (copy (hashBytes proof.nullifier) buffer (0 + 32 + 8)) (0 + 32 + 8 + 32)).length = 112 := by
    rw [copy_length (by omega)]
    omega
  obtain ⟨-, -, length'⟩ := writeBigUInt64LE_ok second (by omega)
  exact ⟨⟨amount, read, nonneg, below⟩, length'.trans recipient_length⟩

theorem serializeProofData_accepts (crypto : Crypto) {proof : ProofData} {amount : Int}
    {block : UInt64} (read : proof.amount = .bigint amount)
    (known : proof.blockNumber = .bigint block.toNat) (nonneg : 0 ≤ amount) (below : amount < 2 ^ 64) :
    ∃ written, serializeProofData crypto proof = .ok written := by
  have fits : (block.toNat : Int) < 2 ^ 64 := by exact_mod_cast block.toNat_lt
  have amountWritten : ∀ buffer offset, writeBigUInt64LE buffer amount offset =
      .ok (copy (Bytes.littleEndian 8 amount.toNat) buffer offset) :=
    fun _ _ => if_pos ⟨nonneg, below⟩
  have blockWritten : ∀ buffer offset, writeBigUInt64LE buffer (block.toNat : Int) offset =
      .ok (copy (Bytes.littleEndian 8 (block.toNat : Int).toNat) buffer offset) :=
    fun _ _ => if_pos ⟨Int.natCast_nonneg _, fits⟩
  exact ⟨_, serializeProofData_ok crypto (by rw [read]; rfl) (amountWritten _ _)
    (by rw [known]; rfl) (blockWritten _ _)⟩

theorem toBigInt_stringified (value : Int) :
    (stringified (.bigint value)).toBigInt = .ok value := by
  rw [stringified, Quantity.toBigInt, bigInt_toText]

/-- Reading back changes no byte. -/
theorem serializeProofData_readBack {proof : StarknetBurnProof} (bigints : Bigints proof) :
    serializeProofData crypto (readBack proof).toProofData =
      serializeProofData crypto proof.toProofData := by
  obtain ⟨amount, block, amount_eq, block_eq⟩ := bigints
  simp only [serializeProofData, readBack, amount_eq, block_eq, toBigInt_stringified]
  rfl

end Bytes

section Generation

variable (burn : Burn S)

/-- What the proof of a burn says, in a block. -/
def Burn.data (block : UInt64) : ProofData where
  txHash := burn.params.starknetTxHash
  amount := .bigint burn.args.amount.val
  nullifier := hexText burn.args.nullifier.val
  recipientBtc := burn.params.bitcoinAddress
  blockNumber := .bigint block.toNat

/-- The vault emits one event in the transaction. -/
theorem Burn.own : ownEvents burn.emissions =
    [.withdrawal burn.args.nullifier burn.args.recipient burn.args.amount] := by
  have grown := execute_emits burn.executed
  rw [burn.emitted] at grown
  exact List.append_cancel_left grown

/-- The supply fits in the low limb. -/
theorem Burn.low : (serialized (burn.args.amount.val % 2 ^ 128)).val = burn.args.amount.val := by
  have supply := burn.supply
  have limb : burn.args.amount.val % 2 ^ 128 = burn.args.amount.val := Nat.mod_eq_of_lt (by omega)
  rw [limb]
  exact Nat.mod_eq_of_lt (by omega)

theorem spent_iff {db : Db} {nullifier : Felt} :
    (db.authorizations.find? fun row =>
      row.nullifierHash == hexText nullifier.val && row.status == .completed).isSome = true ↔
      Spent db nullifier := by
  rw [Table.find?, List.find?_isSome]
  simp only [Bool.and_eq_true, beq_iff_eq, Spent]

theorem Burn.generate_eq (db : Db) (block : UInt64) :
    generateBurnProof S db burn.params.starknetTxHash burn.params.bitcoinAddress
        (.ok (receiptOf burn.selectors block.toNat burn.emissions)) =
      if S.VAULT_CONTRACT_ADDRESS = some (hexText burn.before.address.val) then
        if (db.authorizations.find? fun row => row.nullifierHash ==
            hexText burn.args.nullifier.val && row.status == .completed).isSome then
          .error "Nullifier already used - cannot generate proof for spent withdrawal"
        else do
          let serialized ← serializeProofData S.crypto (burn.data block)
          let signature ← signProof S.crypto S.keys serialized.buffer
          pure ⟨burn.data block, signature⟩
      else .error "No burn event found in transaction" := by
  have answered : getTransactionReceipt burn.params.starknetTxHash
      (.ok (receiptOf burn.selectors block.toNat burn.emissions)) =
        .ok (receiptOf burn.selectors block.toNat burn.emissions) := by
    simp only [getTransactionReceipt, burn.hash, Bool.not_true, Bool.false_eq_true, if_false]
  have succeeded : (receiptOf burn.selectors block.toNat burn.emissions).succeeded = true := rfl
  have number : (Quantity.string (hexText burn.args.amount.val)).toBigInt =
      .ok (burn.args.amount.val : Int) := by
    rw [Quantity.toBigInt, bigInt_hexText]
  rw [generateBurnProof, answered]
  simp only [succeeded, Bool.not_true, Bool.false_eq_true, if_false]
  rw [extractBurnEvent_receipt burn.selectors burn.configured block.toNat burn.own, burn.low]
  by_cases spelled : S.VAULT_CONTRACT_ADDRESS = some (hexText burn.before.address.val)
  · rw [if_pos spelled, if_pos spelled]
    dsimp only
    rw [number, ok_bind]
    rfl
  · rw [if_neg spelled, if_neg spelled]

variable {burn} {db : Db} {proof : StarknetBurnProof}

theorem Burn.generated {block : UInt64} (made : generateBurnProof S db burn.params.starknetTxHash
      burn.params.bitcoinAddress (.ok (receiptOf burn.selectors block.toNat burn.emissions)) =
        .ok proof) :
    Ready S burn.before.address ∧ ¬ Spent db burn.args.nullifier ∧
      burn.args.amount.val < 2 ^ 64 ∧ proof.toProofData = burn.data block := by
  rw [burn.generate_eq] at made
  split_ifs at made with spelled spent
  obtain ⟨written, serialized, made⟩ := bind_eq_ok.mp made
  obtain ⟨signature, signed, made⟩ := bind_eq_ok.mp made
  cases made
  obtain ⟨⟨amount, read, -, below⟩, -⟩ := serializeProofData_bounds serialized
  cases read
  have key : S.keys.SEQUENCER_PRIVATE_KEY ≠ [] := by
    intro missing
    rw [signProof, if_pos missing] at signed
    cases signed
  refine ⟨⟨spelled, key⟩, fun used => spent (spent_iff.mpr used), ?_, rfl⟩
  exact_mod_cast below

theorem Burn.generates (block : UInt64) (ready : Ready S burn.before.address)
    (unspent : ¬ Spent db burn.args.nullifier) (below : burn.args.amount.val < 2 ^ 64) :
    ∃ proof, generateBurnProof S db burn.params.starknetTxHash burn.params.bitcoinAddress
      (.ok (receiptOf burn.selectors block.toNat burn.emissions)) = .ok proof := by
  have amount : (burn.data block).amount = .bigint burn.args.amount.val := rfl
  obtain ⟨written, serialized⟩ := serializeProofData_accepts S.crypto amount rfl
    (Int.natCast_nonneg _) (by exact_mod_cast below)
  rw [burn.generate_eq, if_pos ready.spelled, if_neg (fun used => unspent (spent_iff.mp used)),
    serialized, ok_bind, signProof, if_neg ready.key]
  exact ⟨_, rfl⟩

end Generation

section Runs

variable {burn : Burn S} {s s₀ s' : State} {label : Label}

/-- A proof made of the receipt of the burn. -/
def Burn.Made (burn : Burn S) (fresh : StarknetBurnProof) : Prop :=
  burn.args.amount.val < 2 ^ 64 ∧ ∃ block : UInt64, fresh.toProofData = burn.data block

/-- The authorization stands, the calls that wait ask for its transaction, and a cached row is a
proof that a call has made. -/
structure Burn.Sound (burn : Burn S) (s : State) : Prop where
  granted : grantOf s.db burn.id = some burn.params
  waiting : ∀ (k : Nat) (starknetTxHash bitcoinAddress : Text),
    s.calls[k]? = some (.waiting burn.id starknetTxHash bitcoinAddress) →
    starknetTxHash = burn.params.starknetTxHash ∧ bitcoinAddress = burn.params.bitcoinAddress
  cached : ∀ row, s.starknetProofs burn.id = some row →
    ∃ (k : Nat) (fresh : StarknetBurnProof), s.calls[k]? = some (.ended burn.id (.ok fresh)) ∧
      burn.Made fresh ∧ row = readBack fresh

theorem Burn.Starts.sound (starts : burn.Starts s) : burn.Sound s where
  granted := by
    rw [starts.db, grantOf, (createAuthorization_ok burn.created).2.1]
    rfl
  waiting k _ _ found := by
    rw [starts.calls] at found
    cases found
  cached row stored := by
    rw [starts.uncached] at stored
    cases stored

/-- A call for the authorization is answered from the cache or asks for its transaction. -/
theorem Burn.Sound.called (sound : burn.Sound s) (readable : Bool) :
    getProofForAuthorization s burn.id readable =
      match if readable then s.starknetProofs burn.id else none with
      | some row => .ended burn.id (.ok row)
      | none => .waiting burn.id burn.params.starknetTxHash burn.params.bitcoinAddress := by
  obtain ⟨auth, found, grant⟩ := Option.map_eq_some_iff.mp sound.granted
  rw [getProofForAuthorization, found]
  dsimp only
  rw [← grant]
  rfl

theorem getProofForAuthorization_waiting {authorizationId id starknetTxHash bitcoinAddress : Text}
    {readable : Bool} (waits : getProofForAuthorization s authorizationId readable =
      .waiting id starknetTxHash bitcoinAddress) : authorizationId = id := by
  unfold getProofForAuthorization at waits
  split at waits
  · cases waits
  · split at waits
    · cases waits
    · cases waits
      rfl

theorem called_sound (sound : burn.Sound s) (authorizationId : Text) (readable : Bool) :
    burn.Sound { s with
      calls := s.calls ++ [getProofForAuthorization s authorizationId readable] } where
  granted := sound.granted
  waiting k starknetTxHash bitcoinAddress found := by
    rcases List.mem_append.mp (List.mem_of_getElem? found) with old | new
    · obtain ⟨k', found'⟩ := List.getElem?_of_mem old
      exact sound.waiting k' _ _ found'
    · have waits := (List.mem_singleton.mp new).symm
      obtain rfl := getProofForAuthorization_waiting waits
      rw [sound.called] at waits
      split at waits
      · cases waits
      · cases waits
        exact ⟨rfl, rfl⟩
  cached row stored := by
    obtain ⟨k, fresh, found, made, same⟩ := sound.cached row stored
    have inside : k < s.calls.length := (List.getElem?_eq_some_iff.mp found).1
    refine ⟨k, fresh, ?_, made, same⟩
    rw [List.getElem?_append_left inside]
    exact found

/-- What is ended stays, and the call that waited is the only one to change. -/
theorem set_ended {calls : List Phase} {id k : Nat} {asked txHash address : Text}
    {outcome : Except String StarknetBurnProof}
    (waited : calls[id]? = some (.waiting asked txHash address)) {phase : Phase} :
    (calls.set id (.ended asked outcome))[k]? = some phase ↔
      (k = id ∧ phase = .ended asked outcome) ∨ (k ≠ id ∧ calls[k]? = some phase) := by
  have inside : id < calls.length := (List.getElem?_eq_some_iff.mp waited).1
  by_cases same : k = id
  · subst same
    rw [List.getElem?_set_self inside]
    simp [eq_comm]
  · rw [List.getElem?_set_ne (Ne.symm same)]
    simp [same]

theorem generateBurnProof_reply {db : Db} {txHash address : Text}
    {reply : Except String TransactionReceipt} {proof : StarknetBurnProof}
    (made : generateBurnProof S db txHash address reply = .ok proof) :
    ∃ receipt, reply = .ok receipt := by
  unfold generateBurnProof at made
  cases answer : getTransactionReceipt txHash reply with
  | error error =>
      rw [answer] at made
      cases made
  | ok receipt => exact ⟨receipt, getTransactionReceipt_ok answer⟩

theorem afterReceipt_calls (s : State) (id : Nat) (asked txHash address : Text)
    (reply : Except String TransactionReceipt) (writable : Bool) :
    (afterReceipt S s id asked txHash address reply writable).calls =
      s.calls.set id (.ended asked (generateBurnProof S s.db txHash address reply)) := by
  unfold afterReceipt
  cases generateBurnProof S s.db txHash address reply with
  | error message => rfl
  | ok proof => rfl

theorem answered_sound (sound : burn.Sound s) {id : Nat} {reply : Except String TransactionReceipt}
    {writable : Bool} {asked txHash address : Text}
    (waited : s.calls[id]? = some (.waiting asked txHash address))
    (honest : asked = burn.id → ∀ receipt, reply = .ok receipt →
      ∃ block : UInt64, receipt = receiptOf burn.selectors block.toNat burn.emissions) :
    burn.Sound (afterReceipt S s id asked txHash address reply writable) := by
  have waits : ∀ outcome (k : Nat) starknetTxHash bitcoinAddress,
      (s.calls.set id (.ended asked outcome))[k]? =
        some (.waiting burn.id starknetTxHash bitcoinAddress) →
      starknetTxHash = burn.params.starknetTxHash ∧
        bitcoinAddress = burn.params.bitcoinAddress := by
    intro outcome k starknetTxHash bitcoinAddress found
    rcases (set_ended waited).mp found with ⟨-, ended⟩ | ⟨-, old⟩
    · cases ended
    · exact sound.waiting k _ _ old
  have stays : ∀ outcome row, s.starknetProofs burn.id = some row →
      ∃ (k : Nat) (fresh : StarknetBurnProof),
        (s.calls.set id (.ended asked outcome))[k]? = some (.ended burn.id (.ok fresh)) ∧
        burn.Made fresh ∧ row = readBack fresh := by
    intro outcome row stored
    obtain ⟨k, fresh, found, made, same⟩ := sound.cached row stored
    refine ⟨k, fresh, (set_ended waited).mpr (Or.inr ⟨?_, found⟩), made, same⟩
    rintro rfl
    rw [waited] at found
    cases found
  unfold afterReceipt
  cases generated : generateBurnProof S s.db txHash address reply with
  | error message => exact ⟨sound.granted, waits _, stays _⟩
  | ok proof =>
      refine ⟨sound.granted, waits _, ?_⟩
      intro row stored
      dsimp only at stored ⊢
      by_cases own : asked = burn.id
      · subst own
        obtain ⟨rfl, rfl⟩ := sound.waiting id _ _ waited
        obtain ⟨receipt, rfl⟩ := generateBurnProof_reply generated
        obtain ⟨block, rfl⟩ := honest rfl receipt rfl
        obtain ⟨-, -, below, data⟩ := Burn.generated generated
        cases writable with
        | false => exact stays _ row stored
        | true =>
            rw [if_pos rfl, Function.update_self, Option.some.injEq] at stored
            exact ⟨id, proof, (set_ended waited).mpr (Or.inl ⟨rfl, rfl⟩), ⟨below, block, data⟩,
              stored.symm⟩
      · have apart : (if writable = true then
            Function.update s.starknetProofs asked (some (readBack proof))
            else s.starknetProofs) burn.id = s.starknetProofs burn.id := by
          split_ifs
          · exact Function.update_of_ne (Ne.symm own) _ _
          · rfl
        exact stays _ row (apart.symm.trans stored)

theorem step_sound (sound : burn.Sound s) (allowed : burn.Allowed s label)
    (stepped : step S s label = some s') : burn.Sound s' := by
  cases label with
  | call authorizationId readable =>
      cases stepped
      exact called_sound sound authorizationId readable
  | answer id reply writable =>
      rw [step] at stepped
      split at stepped
      · next asked txHash address waited =>
          cases stepped
          refine answered_sound sound waited ?_
          rintro rfl receipt replied
          exact allowed receipt _ _ replied waited
      · cases stepped
  | write db =>
      cases stepped
      exact ⟨allowed.kept _ _ sound.granted, sound.waiting, sound.cached⟩

theorem reached_sound (starts : burn.Starts s₀)
    (reached : GuardedRun.Reaches (step S) burn.Allowed s₀ s) : burn.Sound s :=
  reached.invariant starts.sound fun _ _ _ sound allowed stepped =>
    step_sound sound allowed stepped

/-- A proof of the burn, made or read back, is right exactly when nothing was withdrawn. -/
theorem matches_iff {k : Nat} {fresh proof : StarknetBurnProof}
    (found : s.calls[k]? = some (.ended burn.id (.ok fresh))) (made : burn.Made fresh)
    (either : proof = fresh ∨ proof = readBack fresh) :
    burn.Matches s proof ↔ burn.args.amount = 0 := by
  obtain ⟨below, block, data⟩ := made
  have amount : fresh.amount = .bigint burn.args.amount.val :=
    congrArg ProofData.amount data
  have number : fresh.blockNumber = .bigint block.toNat := congrArg ProofData.blockNumber data
  have spelled : fresh.nullifier = hexText burn.args.nullifier.val :=
    congrArg ProofData.nullifier data
  have value : proof.amount.toBigInt = .ok (burn.args.amount.val : Int) := by
    rcases either with rfl | rfl
    · rw [amount]
      rfl
    · rw [readBack, amount, toBigInt_stringified]
  constructor
  · intro right
    have same := value.symm.trans right.amount
    rw [burn.amount, Except.ok.injEq] at same
    exact Fin.ext (actualSats_eq_iff.mp same.symm)
  · intro zero
    have nothing : burn.args.amount.val = 0 := congrArg Fin.val zero
    obtain ⟨written, serialized⟩ := serializeProofData_accepts S.crypto amount number
      (Int.natCast_nonneg _) (by exact_mod_cast below)
    have bigints : Bigints fresh := ⟨_, _, amount, number⟩
    refine ⟨?_, ?_, k, fresh, written, found, bigints, either, serialized, ?_, ?_⟩
    · have kept : proof.nullifier = fresh.nullifier := by
        rcases either with rfl | rfl <;> rfl
      rw [kept, spelled]
      exact readLiteral_hex _
    · rw [value, burn.amount, actualSats_eq_iff.mpr nothing]
    · exact (serializeProofData_readBack bigints).trans serialized
    · exact (serializeProofData_bounds serialized).2

/-- In every run, a call for the authorization of a withdrawal ends with the right proof if and
only if the withdrawn amount is zero and the proof is cached or can be made. -/
theorem burnProof_matches_iff (burn : Burn S) (starts : burn.Starts s₀)
    (reached : GuardedRun.Reaches (step S) burn.Allowed s₀ s) (allowed : burn.Allowed s label)
    (stepped : step S s label = some s') {k : Nat} (ends : burn.Ends s label k) :
    (∃ proof, s'.calls[k]? = some (.ended burn.id (.ok proof)) ∧ burn.Matches s' proof) ↔
      burn.Idle s label := by
  have sound := reached_sound starts reached
  cases ends with
  | @readBack row stored =>
      have sound' := step_sound sound allowed stepped
      cases stepped
      have answered : getProofForAuthorization s burn.id true = .ended burn.id (.ok row) := by
        rw [sound.called, if_pos rfl, stored]
      obtain ⟨j, fresh, found, made, same⟩ := sound'.cached row stored
      have right := matches_iff found made (Or.inr same)
      have last : (s.calls ++ [getProofForAuthorization s burn.id true])[s.calls.length]? =
          some (.ended burn.id (.ok row)) := by
        rw [List.getElem?_concat_length, answered]
      constructor
      · rintro ⟨proof, ended, correct⟩
        have equal := ended.symm.trans last
        cases equal
        exact right.mp correct
      · intro zero
        exact ⟨row, last, right.mpr zero⟩
  | @made _ txHash address receipt writable waited =>
      obtain ⟨rfl, rfl⟩ := sound.waiting k _ _ waited
      obtain ⟨block, rfl⟩ := allowed receipt _ _ rfl waited
      rw [step, waited] at stepped
      cases stepped
      have ended_iff : ∀ proof, (afterReceipt S s k burn.id burn.params.starknetTxHash
          burn.params.bitcoinAddress (.ok (receiptOf burn.selectors block.toNat burn.emissions))
          writable).calls[k]? = some (.ended burn.id (.ok proof)) ↔
            generateBurnProof S s.db burn.params.starknetTxHash burn.params.bitcoinAddress
              (.ok (receiptOf burn.selectors block.toNat burn.emissions)) = .ok proof := by
        intro proof
        rw [afterReceipt_calls, set_ended waited]
        simp [eq_comm]
      constructor
      · rintro ⟨proof, ended, correct⟩
        obtain ⟨ready, unspent, below, data⟩ := Burn.generated ((ended_iff proof).mp ended)
        exact ⟨(matches_iff ended ⟨below, block, data⟩ (Or.inl rfl)).mp correct, ready, unspent⟩
      · rintro ⟨zero, ready, unspent⟩
        have below : burn.args.amount.val < 2 ^ 64 := by
          rw [zero]
          decide
        obtain ⟨proof, generated⟩ := Burn.generates block ready unspent below
        obtain ⟨-, -, -, data⟩ := Burn.generated generated
        have ended := (ended_iff proof).mpr generated
        exact ⟨proof, ended, (matches_iff ended ⟨below, block, data⟩ (Or.inl rfl)).mpr zero⟩

end Runs

section Sample

/-- What an accepted call returns. -/
def result {A : Type} (x : Except String A) (accepted : x.isOk = true) : A :=
  match x, accepted with
  | .ok a, _ => a

theorem eq_result {A : Type} {x : Except String A} (accepted : x.isOk = true) :
    x = .ok (result x accepted) := by
  cases x with
  | ok a => rfl
  | error message => cases accepted

/-- The vault at address 11 holds all the tokens. -/
def fundedWorld : World :=
  { Contracts.VaultRuns.robbedWorld with
    token := { Contracts.VaultRuns.robbedWorld.token with
      balances := Function.update (fun _ => 0) 11 Contracts.MockBtc.initialMint } }

def sampleService : Service := ⟨oneSignature, key, some (hexText 11)⟩

def sampleArgs (amount : Contracts.Corelib.U256) : WithdrawArgs := ⟨7, [0], 14, amount⟩

def sampleParams (amount : Contracts.Corelib.U256) : AuthorizationParams where
  vaultId := ['v', '1']
  nullifierHash := hexText 7
  starknetTxHash := '0' :: 'x' :: List.replicate 64 '9'
  bitcoinAddress := ['t', 'b', '1', 'q', 'x']
  amountSats := actualSats amount.val

/-- The token's transfer stands before the vault's own event. -/
def sampleEmissions (amount : Contracts.Corelib.U256) : List (Emission fundedWorld.address) :=
  [.other ⟨12, [99, 11, 14], [serialized amount.val, 0]⟩ (show (12 : Felt) ≠ 11 by decide),
    .own (.withdrawal 7 14 amount)]

def sampleBurn (amount : Contracts.Corelib.U256)
    (supply : amount.val ≤ 21000000000000000000000000)
    (accepted : (execute Sha256.sha256 fundedWorld (.withdraw 14 (sampleArgs amount))).isOk = true)
    (stored : (createAuthorization (sampleParams amount) ['a'] 0 WithdrawGate.lockedDb).isOk =
      true) : Burn sampleService where
  sha := Sha256.sha256
  before := fundedWorld
  after := result _ accepted
  caller := 14
  args := sampleArgs amount
  executed := eq_result accepted
  supply := supply
  selectors := ⟨1, 2⟩
  emissions := sampleEmissions amount
  emitted := execute_emits (eq_result accepted)
  configured text spelled := by
    cases spelled
    exact feltOf_hexText 11
  params := sampleParams amount
  id := ['a']
  nowSecs := 0
  db := WithdrawGate.lockedDb
  authorized := result _ stored
  created := eq_result stored
  amount := rfl
  nullifier := feltOf_hexText 7
  hash := by
    show validateTxHashFormat (paddedHash ('0' :: 'x' :: List.replicate 64 '9')) = true
    decide +kernel

def zeroBurn : Burn sampleService :=
  sampleBurn 0 (by decide) (by decide +kernel) (by decide +kernel)

/-- One bitcoin in wei. -/
def coinBurn : Burn sampleService :=
  sampleBurn 1000000000000000000 (by decide) (by decide +kernel) (by decide +kernel)

def freshState (burn : Burn sampleService) : State := ⟨burn.authorized, fun _ => none, []⟩

/-- A proof is asked for and made in block 9. -/
def madeLabels (burn : Burn sampleService) : List Label :=
  [.call burn.id true, .answer 0 (.ok (receiptOf burn.selectors 9 burn.emissions)) true]

theorem burnProof_matches_zero : ∃ s, GuardedRun.run (step sampleService) (freshState zeroBurn)
      (madeLabels zeroBurn ++ [.call zeroBurn.id true]) = some s ∧
    ∃ proof, s.calls[1]? = some (.ended zeroBurn.id (.ok proof)) ∧ zeroBurn.Matches s proof := by
  have ran : (GuardedRun.run (step sampleService) (freshState zeroBurn)
      (madeLabels zeroBurn)).map (fun s => (s.calls.length, (s.starknetProofs zeroBurn.id).isSome)) =
        some (1, true) := by decide +kernel
  obtain ⟨s, ran, facts⟩ := Option.map_eq_some_iff.mp ran
  obtain ⟨length, stored⟩ := Prod.mk.inj facts
  obtain ⟨row, stored⟩ := Option.isSome_iff_exists.mp stored
  have starts : zeroBurn.Starts (freshState zeroBurn) := ⟨rfl, rfl, rfl⟩
  have reached : GuardedRun.Reaches (step sampleService) zeroBurn.Allowed
      (freshState zeroBurn) s := by
    refine GuardedRun.Reaches.start.of_run ?_ ran
    intro label member state
    rcases List.mem_cons.mp member with rfl | member
    · trivial
    rw [List.mem_singleton.mp member]
    intro receipt _ _ replied _
    cases replied
    exact ⟨9, rfl⟩
  have allowed : zeroBurn.Allowed s (.call zeroBurn.id true) := trivial
  refine ⟨_, GuardedRun.run_snoc.mpr ⟨s, ran, rfl⟩, ?_⟩
  rw [← length]
  exact (burnProof_matches_iff zeroBurn starts reached allowed rfl (.readBack stored)).mpr rfl

def amountOf : Phase → Option Quantity
  | .ended _ (.ok proof) => some proof.amount
  | _ => none

/-- The proof for one bitcoin carries its wei in the place of the satoshis. -/
theorem burnProof_in_wei : ∃ s, GuardedRun.run (step sampleService) (freshState coinBurn)
      (madeLabels coinBurn) = some s ∧
    (s.calls[0]?.bind amountOf) = some (.bigint 1000000000000000000) ∧
    coinBurn.params.amountSats = 100000000 ∧
    ¬ ∃ proof, s.calls[0]? = some (.ended coinBurn.id (.ok proof)) ∧ coinBurn.Matches s proof := by
  have ran : (GuardedRun.run (step sampleService) (freshState coinBurn)
      (madeLabels coinBurn)).map (fun s => s.calls[0]?.bind amountOf) =
        some (some (.bigint 1000000000000000000)) := by decide +kernel
  have sats : coinBurn.params.amountSats = 100000000 := by decide +kernel
  obtain ⟨s, ran, wei⟩ := Option.map_eq_some_iff.mp ran
  refine ⟨s, ran, wei, sats, ?_⟩
  rintro ⟨proof, ended, correct⟩
  rw [ended, Option.bind_some, amountOf, Option.some.injEq] at wei
  have amount := correct.amount
  rw [wei, sats] at amount
  revert amount
  decide

end Sample

end PrivateBtc.Backend.BurnProofs
