/- PrivateBtc/Backend/Authorizations
   digest: Withdrawal authorizations: creation, lookup, and updates of the status. -/

import Mathlib.Data.List.Sort
import Mathlib.Data.Set.Basic
import PrivateBtc.Backend.Database

set_option autoImplicit false
set_option relaxedAutoImplicit false

namespace PrivateBtc.Backend.Authorizations

open Library Library.JsText Library.Outcome
open Database

def getAuthorizationById (db : Db) (id : Text) : Option WithdrawalAuthorization :=
  db.authorizations.find? fun row => row.id == id

def getAuthorizationByNullifier (db : Db) (nullifierHash : Text) :
    Option WithdrawalAuthorization :=
  db.authorizations.find? fun row => row.nullifierHash == nullifierHash

def getPendingAuthorizations (db : Db) : List WithdrawalAuthorization :=
  (db.authorizations.filter fun row => row.status == .pending).insertionSort
    fun a b => a.createdAt ≤ b.createdAt

structure AuthorizationParams where
  vaultId : Text
  nullifierHash : Text
  starknetTxHash : Text
  bitcoinAddress : Text
  amountSats : Int

def AuthorizationParams.row (params : AuthorizationParams) (id : Text) (nowSecs : Nat) :
    WithdrawalAuthorization where
  id := id
  vaultId := params.vaultId
  nullifierHash := params.nullifierHash
  starknetTxHash := params.starknetTxHash
  bitcoinAddress := params.bitcoinAddress
  amountSats := params.amountSats
  status := .pending
  createdAt := nowSecs

def createAuthorization (params : AuthorizationParams) (id : Text) (nowSecs : Nat) (db : Db) :
    Except String Db :=
  if !(['t', 'b', '1'].isPrefixOf params.bitcoinAddress) then
    .error "Invalid Bitcoin address - must be Signet testnet (starts with tb1)"
  else if !(['0', 'x'].isPrefixOf params.starknetTxHash) || params.starknetTxHash.length < 34 then
    .error "Invalid Starknet transaction hash"
  else if (db.authorizations.find? fun row => row.nullifierHash == params.nullifierHash ||
      row.starknetTxHash == params.starknetTxHash).isSome then
    .error "Authorization already exists for this withdrawal"
  else insertAuthorization (params.row id nowSecs) db

def setStatus (status : AuthStatus) (nowSecs : Nat) (bitcoinTxid : Option Text)
    (errorMessage : Option String) (row : WithdrawalAuthorization) : WithdrawalAuthorization :=
  { row with
    status
    confirmedAt := if status = .completed then some nowSecs else row.confirmedAt
    bitcoinTxid := if status = .completed then bitcoinTxid else row.bitcoinTxid
    errorMessage := errorMessage.or row.errorMessage }

theorem setStatus_keeps (status : AuthStatus) (nowSecs : Nat) (bitcoinTxid : Option Text)
    (errorMessage : Option String) :
    Table.Keeps authorizationSchema (setStatus status nowSecs bitcoinTxid errorMessage) :=
  ⟨fun _ => rfl, fun _ _ => rfl⟩

/-- The write of `updateStatus`. -/
def writeStatus (id : Text) (status : AuthStatus) (nowSecs : Nat) (bitcoinTxid : Option Text)
    (errorMessage : Option String) (db : Db) : Db :=
  { db with
    authorizations := db.authorizations.modify (fun row => row.id == id)
      (setStatus status nowSecs bitcoinTxid errorMessage) (setStatus_keeps _ _ _ _) }

/-- `updateStatus` with a status other than completed; it cannot throw. -/
def markStatus (id : Text) (status : AuthStatus) (nowSecs : Nat) (db : Db) : Db :=
  writeStatus id status nowSecs none none db

/-- `updateStatus(id, 'completed', bitcoinTxid)` -/
def markCompleted (id : Text) (nowSecs : Nat) (bitcoinTxid : Text) (db : Db) : Except String Db :=
  if bitcoinTxid.isEmpty then .error "Bitcoin TXID required for completed status"
  else .ok (writeStatus id .completed nowSecs (some bitcoinTxid) none db)

def verifyAuthorization (db : Db) (nullifierHash : Text) : Except String WithdrawalAuthorization :=
  match getAuthorizationByNullifier db nullifierHash with
  | none => .error "No authorization found - withdrawal not authorized"
  | some auth =>
      match auth.status with
      | .completed => .error "Authorization already used - Bitcoin already sent"
      | .failed => .error ("Authorization failed previously: " ++ auth.errorMessage.getD "null")
      | .pending | .processing => .ok auth

def statusOf (db : Db) (id : Text) : Option AuthStatus :=
  (getAuthorizationById db id).map fun row => row.status

def hashOf (db : Db) (id : Text) : Option Text :=
  (getAuthorizationById db id).map fun row => row.starknetTxHash

/-- What the authorization was created for; no statement changes these columns. -/
def granted (row : WithdrawalAuthorization) : AuthorizationParams where
  vaultId := row.vaultId
  nullifierHash := row.nullifierHash
  starknetTxHash := row.starknetTxHash
  bitcoinAddress := row.bitcoinAddress
  amountSats := row.amountSats

def grantOf (db : Db) (id : Text) : Option AuthorizationParams :=
  (getAuthorizationById db id).map granted

theorem hashOf_eq (db : Db) (id : Text) :
    hashOf db id = (grantOf db id).map fun grant => grant.starknetTxHash := by
  rw [grantOf, Option.map_map]
  rfl

theorem hashOf_of_grants {db db' : Db} (grants : ∀ id, grantOf db' id = grantOf db id) (id : Text) :
    hashOf db' id = hashOf db id := by
  rw [hashOf_eq, hashOf_eq, grants]

theorem getAuthorizationById_id {db : Db} {id : Text} {row : WithdrawalAuthorization}
    (found : getAuthorizationById db id = some row) : row.id = id := by
  have named := (Table.find?_some found).2
  simpa using named

theorem getAuthorizationById_of_mem {db : Db} {row : WithdrawalAuthorization}
    (member : row ∈ db.authorizations.rows) : getAuthorizationById db row.id = some row := by
  refine Table.find?_of_mem member (by simp) ?_
  intro a b a_id b_id
  rw [beq_iff_eq] at a_id b_id
  simp [authorizationSchema, a_id, b_id]

theorem getAuthorizationById_writeStatus (id other : Text) (status : AuthStatus) (nowSecs : Nat)
    (bitcoinTxid : Option Text) (errorMessage : Option String) (db : Db) :
    getAuthorizationById (writeStatus id status nowSecs bitcoinTxid errorMessage db) other =
      (getAuthorizationById db other).map fun row =>
        if other = id then setStatus status nowSecs bitcoinTxid errorMessage row else row := by
  have moved := Table.find?_modify db.authorizations (fun row => row.id == id)
    (fun row => row.id == other) _ (setStatus_keeps status nowSecs bitcoinTxid errorMessage)
    fun _ => rfl
  rw [getAuthorizationById, writeStatus, moved, ← getAuthorizationById]
  cases found : getAuthorizationById db other with
  | none => rfl
  | some row =>
      have named := getAuthorizationById_id found
      subst named
      simp

theorem statusOf_writeStatus (id other : Text) (status : AuthStatus) (nowSecs : Nat)
    (bitcoinTxid : Option Text) (errorMessage : Option String) (db : Db) :
    statusOf (writeStatus id status nowSecs bitcoinTxid errorMessage db) other =
      if other = id then (statusOf db other).map fun _ => status else statusOf db other := by
  rw [statusOf, getAuthorizationById_writeStatus, statusOf]
  split_ifs <;> simp [Function.comp_def, setStatus]

@[simp] theorem grantOf_writeStatus (id other : Text) (status : AuthStatus) (nowSecs : Nat)
    (bitcoinTxid : Option Text) (errorMessage : Option String) (db : Db) :
    grantOf (writeStatus id status nowSecs bitcoinTxid errorMessage db) other =
      grantOf db other := by
  rw [grantOf, getAuthorizationById_writeStatus, grantOf, Option.map_map]
  split_ifs <;> rfl

/-- A new authorization is pending under a new id; the others stay. -/
theorem createAuthorization_ok {params : AuthorizationParams} {id : Text} {nowSecs : Nat}
    {db db' : Db} (created : createAuthorization params id nowSecs db = .ok db') :
    getAuthorizationById db id = none ∧ getAuthorizationById db' id = some (params.row id nowSecs) ∧
      (∀ other, other ≠ id → getAuthorizationById db' other = getAuthorizationById db other) ∧
      db'.vaults = db.vaults ∧ db'.nullifiers = db.nullifiers := by
  unfold createAuthorization at created
  split_ifs at created
  obtain ⟨vaults, nullifiers, inserted⟩ := insertAuthorization_ok created
  have rows := Table.insert_rows inserted
  have fresh : getAuthorizationById db id = none := by
    cases found : getAuthorizationById db id with
    | none => rfl
    | some row =>
        have clash := Table.insert_clash inserted (Table.find?_some found).1
        have named := getAuthorizationById_id found
        simp [authorizationSchema, AuthorizationParams.row, named] at clash
  refine ⟨fresh, ?_, ?_, vaults, nullifiers⟩
  · unfold getAuthorizationById Table.find? at fresh ⊢
    rw [rows, List.find?_append, fresh]
    simp [AuthorizationParams.row]
  · intro other apart
    unfold getAuthorizationById Table.find?
    rw [rows, List.find?_append]
    have skip : ((params.row id nowSecs).id == other) = false := by
      simpa [AuthorizationParams.row] using fun same => apart same.symm
    simp [skip]

theorem statusOf_isSome_iff (db : Db) (id : Text) :
    (statusOf db id).isSome ↔ (hashOf db id).isSome := by
  simp [statusOf, hashOf]

/-- Writes that move the status of the authorizations in `ids` at most, to another than completed. -/
structure Marks (ids : Set Text) (db db' : Db) : Prop where
  vaults : db'.vaults = db.vaults
  nullifiers : db'.nullifiers = db.nullifiers
  grants : ∀ id, grantOf db' id = grantOf db id
  statuses : ∀ id, statusOf db' id = statusOf db id ∨ id ∈ ids ∧ statusOf db' id ≠ some .completed

namespace Marks

variable {ids : Set Text} {db db' db'' : Db}

theorem refl (ids : Set Text) (db : Db) : Marks ids db db :=
  ⟨rfl, rfl, fun _ => rfl, fun _ => Or.inl rfl⟩

theorem trans (first : Marks ids db db') (second : Marks ids db' db'') : Marks ids db db'' := by
  refine ⟨second.vaults.trans first.vaults, second.nullifiers.trans first.nullifiers,
    fun id => (second.grants id).trans (first.grants id), ?_⟩
  intro id
  rcases second.statuses id with same | moved
  · rw [same]
    exact first.statuses id
  · exact Or.inr moved

theorem hashes (marks : Marks ids db db') (id : Text) : hashOf db' id = hashOf db id :=
  hashOf_of_grants marks.grants id

theorem mono {more : Set Text} (marks : Marks ids db db') (within : ids ⊆ more) :
    Marks more db db' := by
  refine ⟨marks.vaults, marks.nullifiers, marks.grants, fun id => ?_⟩
  rcases marks.statuses id with same | ⟨member, open_⟩
  · exact Or.inl same
  · exact Or.inr ⟨within member, open_⟩

theorem of_writeStatus {id : Text} {status : AuthStatus} (member : id ∈ ids)
    (open_ : status ≠ .completed) (nowSecs : Nat) (bitcoinTxid : Option Text)
    (errorMessage : Option String) (db : Db) :
    Marks ids db (writeStatus id status nowSecs bitcoinTxid errorMessage db) := by
  refine ⟨rfl, rfl, fun other => grantOf_writeStatus .., fun other => ?_⟩
  rw [statusOf_writeStatus]
  split_ifs with same
  · right
    subst same
    refine ⟨member, ?_⟩
    cases statusOf db other <;> simp [open_]
  · exact Or.inl rfl

/-- Marks on authorizations that are not completed complete and reopen nothing. -/
theorem completed_iff (marks : Marks ids db db')
    (undone : ∀ id ∈ ids, statusOf db id ≠ some .completed) (id : Text) :
    statusOf db' id = some .completed ↔ statusOf db id = some .completed := by
  rcases marks.statuses id with same | ⟨member, open_⟩
  · rw [same]
  · exact iff_of_false open_ (undone id member)

end Marks

/-- The write that records a payout. -/
structure Completes (id : Text) (db db' : Db) : Prop where
  vaults : db'.vaults = db.vaults
  nullifiers : db'.nullifiers = db.nullifiers
  grants : ∀ other, grantOf db' other = grantOf db other
  statuses : ∀ other, statusOf db' other =
    if other = id then (statusOf db other).map fun _ => .completed else statusOf db other

namespace Completes

variable {id : Text} {db db' db'' : Db}

theorem of_writeStatus (id : Text) (nowSecs : Nat) (bitcoinTxid : Option Text)
    (errorMessage : Option String) (db : Db) :
    Completes id db (writeStatus id .completed nowSecs bitcoinTxid errorMessage db) :=
  ⟨rfl, rfl, fun _ => grantOf_writeStatus .., fun _ => statusOf_writeStatus ..⟩

theorem hashes (completes : Completes id db db') (other : Text) :
    hashOf db' other = hashOf db other :=
  hashOf_of_grants completes.grants other

theorem trans (first : Completes id db db') (second : Completes id db' db'') :
    Completes id db db'' := by
  refine ⟨second.vaults.trans first.vaults, second.nullifiers.trans first.nullifiers,
    fun other => ?_, fun other => ?_⟩
  · rw [second.grants, first.grants]
  · rw [second.statuses, first.statuses]
    split_ifs
    · rw [Option.map_map]
      rfl
    · rfl

theorem completed_iff (completes : Completes id db db') (known : (hashOf db id).isSome)
    (other : Text) :
    statusOf db' other = some .completed ↔ other = id ∨ statusOf db other = some .completed := by
  rw [completes.statuses]
  split_ifs with same
  · subst same
    rw [← statusOf_isSome_iff] at known
    obtain ⟨status, found⟩ := Option.isSome_iff_exists.mp known
    simp [found]
  · simp [same]

end Completes

/-- No authorization is deleted or changed in what it was created for, and a new one pays to
a Signet address. -/
structure Extends (db db' : Db) : Prop where
  kept : ∀ id grant, grantOf db id = some grant → grantOf db' id = some grant
  known : ∀ id grant, grantOf db' id = some grant →
    grantOf db id = some grant ∨ ['t', 'b', '1'].isPrefixOf grant.bitcoinAddress = true

namespace Extends

variable {db db' db'' : Db}

theorem refl (db : Db) : Extends db db := ⟨fun _ _ found => found, fun _ _ found => Or.inl found⟩

theorem of_grants (grants : ∀ id, grantOf db' id = grantOf db id) : Extends db db' :=
  ⟨fun id _ found => (grants id).trans found, fun id _ found => Or.inl ((grants id) ▸ found)⟩

theorem trans (first : Extends db db') (second : Extends db' db'') : Extends db db'' := by
  constructor
  · intro id grant found
    exact second.kept id grant (first.kept id grant found)
  · intro id grant found
    rcases second.known id grant found with old | signet
    · exact first.known id grant old
    · exact Or.inr signet

theorem hash (extends_ : Extends db db') {id hash : Text} (found : hashOf db id = some hash) :
    hashOf db' id = some hash := by
  rw [hashOf_eq, Option.map_eq_some_iff] at found ⊢
  obtain ⟨grant, stored, told⟩ := found
  exact ⟨grant, extends_.kept id grant stored, told⟩

end Extends

theorem createAuthorization_extends {params : AuthorizationParams} {id : Text} {nowSecs : Nat}
    {db db' : Db} (created : createAuthorization params id nowSecs db = .ok db') :
    Extends db db' := by
  obtain ⟨fresh, stored, others, _⟩ := createAuthorization_ok created
  have passed : ∀ other, other ≠ id → grantOf db' other = grantOf db other := by
    intro other apart
    rw [grantOf, grantOf, others other apart]
  constructor
  · intro other grant found
    have apart : other ≠ id := by
      rintro rfl
      simp [grantOf, fresh] at found
    rw [passed other apart, found]
  · intro other grant found
    by_cases same : other = id
    · subst same
      rw [grantOf, stored, Option.map_some, Option.some.injEq] at found
      subst found
      right
      unfold createAuthorization at created
      split_ifs at created with signet
      show ['t', 'b', '1'].isPrefixOf params.bitcoinAddress = true
      simpa using signet
    · exact Or.inl (by rwa [passed other same] at found)

theorem createAuthorization_completed_iff {params : AuthorizationParams} {id : Text}
    {nowSecs : Nat} {db db' : Db} (created : createAuthorization params id nowSecs db = .ok db')
    (other : Text) :
    statusOf db' other = some .completed ↔ statusOf db other = some .completed := by
  obtain ⟨fresh, row, others, _⟩ := createAuthorization_ok created
  by_cases same : other = id
  · subst same
    simp [statusOf, fresh, row, AuthorizationParams.row]
  · rw [statusOf, statusOf, others other same]

/-- Both views read one table. -/
theorem statusOf_congr {db db' : Db} (same : db'.authorizations = db.authorizations) (id : Text) :
    statusOf db' id = statusOf db id := by
  rw [statusOf, statusOf, getAuthorizationById, same, getAuthorizationById]

theorem grantOf_congr {db db' : Db} (same : db'.authorizations = db.authorizations) (id : Text) :
    grantOf db' id = grantOf db id := by
  rw [grantOf, grantOf, getAuthorizationById, same, getAuthorizationById]

end PrivateBtc.Backend.Authorizations
