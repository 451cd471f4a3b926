/- PrivateBtc/Backend/Database
   digest: The tables of the backend with their constraints, and the statements that write them. -/

import PrivateBtc.Library.JsText
import PrivateBtc.Library.Outcome
import PrivateBtc.Library.Table

set_option autoImplicit false
set_option relaxedAutoImplicit false

namespace PrivateBtc.Backend.Database

open Library Library.JsText Library.Outcome

inductive VaultStatus where
  | pending
  | active
  | withdrawn
  deriving DecidableEq

inductive AuthStatus where
  | pending
  | processing
  | completed
  | failed
  deriving DecidableEq

def VaultStatus.text : VaultStatus → String
  | .pending => "pending"
  | .active => "active"
  | .withdrawn => "withdrawn"

structure VaultRow where
  id : Text
  ownerAddress : Text
  commitment : Text
  encryptedAmount : Text
  salt : Text
  randomnessHint : Text
  lockDurationDays : Nat
  createdAt : Nat
  unlockAt : Nat
  status : VaultStatus
  depositTxHash : Option Text := none
  withdrawTxHash : Option Text := none
  bitcoinTxid : Option Text := none
  nullifierHash : Option Text := none
  bitcoinWithdrawalAddress : Option Text := none
  depositSenderAddress : Option Text := none

structure CommitmentRow where
  commitment : Text
  vaultId : Text
  blockNumber : Option Nat := none

structure NullifierRow where
  nullifierHash : Text
  vaultId : Text
  usedAt : Nat
  withdrawTxHash : Text

inductive TransactionType where
  | deposit
  | withdraw

structure TransactionRow where
  id : Text
  vaultId : Text
  txHash : Text
  type : TransactionType
  amountEncrypted : Text
  blockNumber : Option Nat := none
  blockTimestamp : Option Nat := none
  succeeded : Bool := false
  timestamp : Nat

structure WithdrawalAuthorization where
  id : Text
  vaultId : Text
  nullifierHash : Text
  starknetTxHash : Text
  bitcoinAddress : Text
  amountSats : Int
  status : AuthStatus
  createdAt : Nat
  confirmedAt : Option Nat := none
  bitcoinTxid : Option Text := none
  errorMessage : Option String := none

/-- `LIKE` ignores the case of letters. -/
def like (start text : Text) : Bool := start.isPrefixOf (toLowerCase text)

/-- length(hash) >= 34 AND hash LIKE '0x%' -/
def isTxHash (hash : Text) : Bool := 34 ≤ hash.length && like ['0', 'x'] hash

def isTxHashOrNull : Option Text → Bool
  | some hash => isTxHash hash
  | none => true

/-- NULLs are distinct under UNIQUE. -/
def sameValue : Option Text → Option Text → Bool
  | some a, some b => a == b
  | _, _ => false

theorem sameValue_symm (a b : Option Text) : sameValue a b = sameValue b a := by
  cases a <;> cases b <;> simp only [sameValue]
  exact BEq.comm

def vaultSchema : Schema VaultRow where
  check row := [30, 90, 365].contains row.lockDurationDays && isTxHashOrNull row.depositTxHash &&
    isTxHashOrNull row.withdrawTxHash
  clash a b := a.id == b.id || a.commitment == b.commitment ||
    sameValue a.nullifierHash b.nullifierHash
  clash_symm a b := by
    rw [BEq.comm (a := a.id), BEq.comm (a := a.commitment), sameValue_symm]

def commitmentSchema : Schema CommitmentRow where
  check _ := true
  clash a b := a.commitment == b.commitment
  clash_symm _ _ := BEq.comm

def nullifierSchema : Schema NullifierRow where
  check _ := true
  clash a b := a.nullifierHash == b.nullifierHash
  clash_symm _ _ := BEq.comm

/-- The check is the trigger `enforce_real_tx_hash`. -/
def transactionSchema : Schema TransactionRow where
  check row := isTxHash row.txHash
  clash a b := a.id == b.id || a.txHash == b.txHash
  clash_symm a b := by rw [BEq.comm (a := a.id), BEq.comm (a := a.txHash)]

def authorizationSchema : Schema WithdrawalAuthorization where
  check row := isTxHash row.starknetTxHash && like ['t', 'b', '1'] row.bitcoinAddress
  clash a b := a.id == b.id || a.nullifierHash == b.nullifierHash ||
    a.starknetTxHash == b.starknetTxHash
  clash_symm a b := by
    rw [BEq.comm (a := a.id), BEq.comm (a := a.nullifierHash), BEq.comm (a := a.starknetTxHash)]

/-- The database file. -/
structure Db where
  vaults : Table vaultSchema
  commitments : Table commitmentSchema
  nullifiers : Table nullifierSchema
  transactions : Table transactionSchema
  authorizations : Table authorizationSchema

def empty : Db := ⟨.empty, .empty, .empty, .empty, .empty⟩

/-- A statement that fails throws and writes nothing. -/
abbrev Statement := Db → Except String Db

def orThrow {A : Type} : Except Table.Violation A → Except String A
  | .ok a => .ok a
  | .error .check => .error "CHECK constraint failed"
  | .error .unique => .error "UNIQUE constraint failed"

/-- REFERENCES vaults(id) -/
def references (vaultId : Text) (db : Db) : Except String Unit :=
  if (db.vaults.find? fun v => v.id == vaultId).isSome then .ok ()
  else .error "FOREIGN KEY constraint failed"

def insertVault (row : VaultRow) : Statement := fun db => do
  pure { db with vaults := ← orThrow (db.vaults.insert row) }

def updateVaults (selected : VaultRow → Bool) (change : VaultRow → VaultRow) : Statement :=
  fun db => do pure { db with vaults := ← orThrow (db.vaults.update selected change) }

def insertCommitment (row : CommitmentRow) : Statement := fun db => do
  let commitments ← orThrow (db.commitments.insert row)
  references row.vaultId db
  pure { db with commitments }

def updateCommitments (selected : CommitmentRow → Bool) (change : CommitmentRow → CommitmentRow) :
    Statement := fun db => do
  pure { db with commitments := ← orThrow (db.commitments.update selected change) }

def insertNullifier (row : NullifierRow) : Statement := fun db => do
  let nullifiers ← orThrow (db.nullifiers.insert row)
  references row.vaultId db
  pure { db with nullifiers }

def insertTransaction (row : TransactionRow) : Statement := fun db => do
  let transactions ← orThrow (db.transactions.insert row)
  references row.vaultId db
  pure { db with transactions }

def insertAuthorization (row : WithdrawalAuthorization) : Statement := fun db => do
  let authorizations ← orThrow (db.authorizations.insert row)
  references row.vaultId db
  pure { db with authorizations }

def vaultById (db : Db) (id : Text) : Option VaultRow := db.vaults.find? fun v => v.id == id

def vaultByNullifier (db : Db) (nullifierHash : Text) : Option VaultRow :=
  db.vaults.find? fun v => v.nullifierHash == some nullifierHash

@[simp] theorem orThrow_ok {A : Type} {x : Except Table.Violation A} {a : A} :
    orThrow x = .ok a ↔ x = .ok a := by
  cases x with
  | ok b => simp [orThrow]
  | error violation => cases violation <;> simp [orThrow]

/-- The tables that withdrawals are accounted in stay as they were. -/
structure Apart (db db' : Db) : Prop where
  authorizations : db'.authorizations = db.authorizations
  nullifiers : db'.nullifiers = db.nullifiers

theorem Apart.refl (db : Db) : Apart db db := ⟨rfl, rfl⟩

theorem Apart.trans {db db' db'' : Db} (first : Apart db db') (second : Apart db' db'') :
    Apart db db'' :=
  ⟨second.authorizations.trans first.authorizations, second.nullifiers.trans first.nullifiers⟩

section Effects

variable {db db' : Db}

theorem insertVault_ok {row : VaultRow} (done : insertVault row db = .ok db') :
    db'.vaults.rows = db.vaults.rows ++ [row] ∧ Apart db db' := by
  simp only [insertVault, bind_eq_ok, orThrow_ok, pure_eq_ok, Except.ok.injEq] at done
  obtain ⟨vaults, inserted, rfl⟩ := done
  exact ⟨Table.insert_rows inserted, rfl, rfl⟩

theorem updateVaults_ok {selected : VaultRow → Bool} {change : VaultRow → VaultRow}
    (done : updateVaults selected change db = .ok db') :
    db'.vaults.rows = (db.vaults.rows.map fun r => if selected r then change r else r) ∧
      Apart db db' := by
  simp only [updateVaults, bind_eq_ok, orThrow_ok, pure_eq_ok, Except.ok.injEq] at done
  obtain ⟨vaults, updated, rfl⟩ := done
  exact ⟨Table.update_rows updated, rfl, rfl⟩

theorem insertCommitment_ok {row : CommitmentRow} (done : insertCommitment row db = .ok db') :
    db'.vaults = db.vaults ∧ Apart db db' := by
  simp only [insertCommitment, bind_eq_ok, pure_eq_ok, Except.ok.injEq] at done
  obtain ⟨_, -, _, -, rfl⟩ := done
  exact ⟨rfl, rfl, rfl⟩

theorem updateCommitments_ok {selected : CommitmentRow → Bool}
    {change : CommitmentRow → CommitmentRow} (done : updateCommitments selected change db = .ok db') :
    db'.vaults = db.vaults ∧ Apart db db' := by
  simp only [updateCommitments, bind_eq_ok, pure_eq_ok, Except.ok.injEq] at done
  obtain ⟨_, -, rfl⟩ := done
  exact ⟨rfl, rfl, rfl⟩

theorem insertNullifier_ok {row : NullifierRow} (done : insertNullifier row db = .ok db') :
    db'.vaults = db.vaults ∧ db'.authorizations = db.authorizations ∧
      db'.nullifiers.rows = db.nullifiers.rows ++ [row] := by
  simp only [insertNullifier, bind_eq_ok, orThrow_ok, pure_eq_ok, Except.ok.injEq] at done
  obtain ⟨nullifiers, inserted, _, -, rfl⟩ := done
  exact ⟨rfl, rfl, Table.insert_rows inserted⟩

theorem insertTransaction_ok {row : TransactionRow} (done : insertTransaction row db = .ok db') :
    db'.vaults = db.vaults ∧ Apart db db' := by
  simp only [insertTransaction, bind_eq_ok, pure_eq_ok, Except.ok.injEq] at done
  obtain ⟨_, -, _, -, rfl⟩ := done
  exact ⟨rfl, rfl, rfl⟩

theorem insertAuthorization_ok {row : WithdrawalAuthorization}
    (done : insertAuthorization row db = .ok db') :
    db'.vaults = db.vaults ∧ db'.nullifiers = db.nullifiers ∧
      db.authorizations.insert row = .ok db'.authorizations := by
  simp only [insertAuthorization, bind_eq_ok, orThrow_ok, pure_eq_ok, Except.ok.injEq] at done
  obtain ⟨authorizations, inserted, _, -, rfl⟩ := done
  exact ⟨rfl, rfl, inserted⟩

end Effects

/-- The columns of a vault that no statement changes. -/
structure SameVault (row row' : VaultRow) : Prop where
  id : row'.id = row.id
  commitment : row'.commitment = row.commitment
  encryptedAmount : row'.encryptedAmount = row.encryptedAmount
  salt : row'.salt = row.salt

theorem SameVault.refl (row : VaultRow) : SameVault row row := ⟨rfl, rfl, rfl, rfl⟩

theorem SameVault.trans {row row' row'' : VaultRow} (first : SameVault row row')
    (second : SameVault row' row'') : SameVault row row'' :=
  ⟨second.id.trans first.id, second.commitment.trans first.commitment,
    second.encryptedAmount.trans first.encryptedAmount, second.salt.trans first.salt⟩

/-- Two rows with one id are the same row. -/
theorem eq_of_id {db : Db} {a b : VaultRow} (a_mem : a ∈ db.vaults.rows)
    (b_mem : b ∈ db.vaults.rows) (same : a.id = b.id) : a = b :=
  db.vaults.eq_of_clash a_mem b_mem (by simp [vaultSchema, same])

theorem vaultById_of_mem {db : Db} {row : VaultRow} {id : Text} (member : row ∈ db.vaults.rows)
    (named : row.id = id) : vaultById db id = some row := by
  refine Table.find?_of_mem member (beq_iff_eq.mpr named) ?_
  intro a b a_named b_named
  rw [beq_iff_eq] at a_named b_named
  simp [vaultSchema, a_named, b_named]

end PrivateBtc.Backend.Database
