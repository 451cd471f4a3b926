/- PrivateBtc/Backend/AcknowledgedDeposits
   digest: When a deposit that spv-deposit has acknowledged is stored, and the earlier ones stay. -/

import PrivateBtc.Backend.Server

set_option autoImplicit false
set_option relaxedAutoImplicit false

namespace PrivateBtc.Backend.AcknowledgedDeposits

open Library Library.JsText Library.Outcome
open CryptoService Database Deposits Http Starknet
open Payments (Config)

/-- What an acknowledged deposit is known by. -/
structure Deposit where
  commitment : Text
  nullifierHash : Text
  txHash : Text
  amount : Int
  deriving DecidableEq

section Records

variable (crypto : Crypto)

/-- The deposit that an active vault stands for. -/
def depositOf (row : VaultRow) : Option Deposit :=
  match row.status, row.nullifierHash, row.depositTxHash,
      decryptAmount crypto row.encryptedAmount row.salt with
  | .active, some nullifierHash, some txHash, .ok amount =>
      some ⟨row.commitment, nullifierHash, txHash, amount⟩
  | _, _, _, _ => none

def recorded (db : Db) : List Deposit := db.vaults.rows.filterMap (depositOf crypto)

theorem depositOf_eq_some {row : VaultRow} {deposit : Deposit} :
    depositOf crypto row = some deposit ↔
      row.status = .active ∧ row.commitment = deposit.commitment ∧
      row.nullifierHash = some deposit.nullifierHash ∧
      row.depositTxHash = some deposit.txHash ∧
      decryptAmount crypto row.encryptedAmount row.salt = .ok deposit.amount := by
  rcases deposit with ⟨commitment, nullifierHash, txHash, amount⟩
  unfold depositOf
  split
  · next active nullifier hash decrypts =>
    rw [active, nullifier, hash, decrypts]
    simp
  · next other =>
    simp only [reduceCtorEq, false_iff]
    rintro ⟨active, -, nullifier, hash, decrypts⟩
    exact other _ _ _ active nullifier hash decrypts

theorem mem_recorded {db : Db} {deposit : Deposit} :
    deposit ∈ recorded crypto db ↔ ∃ row ∈ db.vaults.rows, depositOf crypto row = some deposit :=
  List.mem_filterMap

/-- The vault with this id stands for no deposit of another transaction. -/
def Vacant (db : Db) (vaultId txHash : Text) : Prop :=
  ∀ row ∈ db.vaults.rows, row.id = vaultId →
    ∀ deposit, depositOf crypto row = some deposit → deposit.txHash = txHash

/-- No vault has the id, the commitment or the nullifier. -/
def Fresh (db : Db) (vaultId : Text) (deposit : Deposit) : Prop :=
  isTxHash deposit.txHash = true ∧ ∀ row ∈ db.vaults.rows,
    row.id ≠ vaultId ∧ row.commitment ≠ deposit.commitment ∧
      row.nullifierHash ≠ some deposit.nullifierHash

/-- The vault with this id already has the commitment, the amount and the nullifier, or it can
still take the nullifier. -/
def Awaited (db : Db) (vaultId : Text) (deposit : Deposit) : Prop :=
  isTxHash deposit.txHash = true ∧ ∃ row ∈ db.vaults.rows,
    row.id = vaultId ∧ row.commitment = deposit.commitment ∧
      decryptAmount crypto row.encryptedAmount row.salt = .ok deposit.amount ∧
      (row.nullifierHash = some deposit.nullifierHash ∨ row.nullifierHash = none ∧
        ∀ other ∈ db.vaults.rows, other.nullifierHash ≠ some deposit.nullifierHash)

end Records

theorem vault_apart {a b : VaultRow} :
    vaultSchema.clash a b = false ↔ a.id ≠ b.id ∧ a.commitment ≠ b.commitment ∧
      ∀ nullifierHash, a.nullifierHash = some nullifierHash →
        b.nullifierHash ≠ some nullifierHash := by
  have nullifiers : sameValue a.nullifierHash b.nullifierHash = false ↔
      ∀ nullifierHash, a.nullifierHash = some nullifierHash →
        b.nullifierHash ≠ some nullifierHash := by
    cases a.nullifierHash with
    | none => simp [sameValue]
    | some left =>
        cases b.nullifierHash with
        | none => simp [sameValue]
        | some right =>
            rw [sameValue, beq_eq_false_iff_ne]
            constructor
            · rintro other nullifierHash ⟨⟩ ⟨⟩
              exact other rfl
            · intro other same
              exact other left rfl (congrArg some same.symm)
  rw [← nullifiers]
  simp [vaultSchema, and_assoc]

theorem vault_keyed (row : VaultRow) : vaultSchema.clash row row = true := by
  simp [vaultSchema]

/-- The vault of the row's id is revived, the others stay. -/
structure Revives (row v : VaultRow) (db db' : Db) : Prop where
  present : revived row v ∈ db'.vaults.rows
  kept : ∀ r ∈ db.vaults.rows, r ≠ v → r ∈ db'.vaults.rows
  origin : ∀ r ∈ db'.vaults.rows, r = revived row v ∨ r ∈ db.vaults.rows

theorem eq_of_found {db : Db} {vaultId : Text} {v r : VaultRow}
    (found : vaultById db vaultId = some v) (member : r ∈ db.vaults.rows) (same : r.id = vaultId) :
    r = v := by
  obtain ⟨v_mem, chosen⟩ := Table.find?_some found
  rw [beq_iff_eq] at chosen
  exact eq_of_id member v_mem (same.trans chosen.symm)

theorem storeSpv_revives {row v : VaultRow} {db db' : Db} (found : vaultById db row.id = some v)
    (stored : storeSpv row db = .ok db') : Revives row v db db' := by
  obtain ⟨member, chosen⟩ := Table.find?_some found
  have rows : db'.vaults.rows =
      db.vaults.rows.map fun r => if r.id == row.id then revived row r else r := by
    rcases (storeSpv_ok stored).1 with ⟨missing, -⟩ | ⟨-, rows⟩
    · rw [found] at missing
      cases missing
    · exact rows
  constructor
  · rw [rows]
    exact List.mem_map.mpr ⟨v, member, if_pos chosen⟩
  · intro r r_mem other
    rw [rows]
    refine List.mem_map.mpr ⟨r, r_mem, if_neg ?_⟩
    rw [beq_iff_eq]
    exact fun same => other (eq_of_found found r_mem same)
  · intro r r_mem
    rw [rows] at r_mem
    obtain ⟨old, old_mem, rfl⟩ := List.mem_map.mp r_mem
    split_ifs with hit
    · rw [beq_iff_eq] at hit
      rw [eq_of_found found old_mem hit]
      exact Or.inl rfl
    · exact Or.inr old_mem

section Reviving

variable {crypto : Crypto} {row v : VaultRow} {db db' : Db}

theorem Revives.recorded_origin (revives : Revives row v db db') {deposit : Deposit}
    (stored : deposit ∈ recorded crypto db') :
    depositOf crypto (revived row v) = some deposit ∨ deposit ∈ recorded crypto db := by
  obtain ⟨r, r_mem, holds⟩ := (mem_recorded crypto).mp stored
  rcases revives.origin r r_mem with rfl | old
  · exact Or.inl holds
  · exact Or.inr ((mem_recorded crypto).mpr ⟨r, old, holds⟩)

/-- Nothing is lost exactly when the revived vault's own deposit has the new hash. -/
theorem Revives.recorded_subset_iff (revives : Revives row v db db') (member : v ∈ db.vaults.rows) :
    recorded crypto db ⊆ recorded crypto db' ↔
      ∀ deposit, depositOf crypto v = some deposit → row.depositTxHash = some deposit.txHash := by
  constructor
  · intro earlier deposit holds
    obtain ⟨r, r_mem, still⟩ := (mem_recorded crypto).mp
      (earlier ((mem_recorded crypto).mpr ⟨v, member, holds⟩))
    obtain ⟨-, commitment, -, -, -⟩ := (depositOf_eq_some crypto).mp holds
    obtain ⟨-, commitment', -, hash, -⟩ := (depositOf_eq_some crypto).mp still
    have same_row : r = revived row v :=
      db'.vaults.eq_of_clash r_mem revives.present (by
        simp [vaultSchema, revived, commitment, commitment'])
    rw [same_row] at hash
    exact hash
  · intro same deposit held
    obtain ⟨r, r_mem, holds⟩ := (mem_recorded crypto).mp held
    by_cases here : r = v
    · rw [here] at holds
      obtain ⟨-, commitment, nullifier, -, decrypts⟩ := (depositOf_eq_some crypto).mp holds
      refine (mem_recorded crypto).mpr ⟨_, revives.present, ?_⟩
      refine (depositOf_eq_some crypto).mpr ⟨rfl, commitment, ?_, same deposit holds, decrypts⟩
      simp [revived, nullifier]
    · exact (mem_recorded crypto).mpr ⟨r, revives.kept r r_mem here, holds⟩

end Reviving

section Storing

variable (cfg : Config) (moment : Moment) (body : SpvDepositBody) (nullifierHash txHash : Text)
  (amount : Int) {db : Db} {vaultId : Text}

/-- The row that spv-deposit inserts stands for its deposit. -/
theorem depositOf_spvRow (vaultId : Text) :
    depositOf cfg.crypto (spvRow cfg moment body vaultId nullifierHash txHash amount) =
      some ⟨body.commitment, nullifierHash, txHash, amount⟩ :=
  (depositOf_eq_some cfg.crypto).mpr
    ⟨rfl, rfl, rfl, rfl, decryptAmount_encryptAmount cfg.crypto _ amount _⟩

/-- Without a vault of this id the store is accepted exactly when the deposit is fresh. -/
theorem insert_accepted_iff (missing : vaultById db vaultId = none) :
    (∃ db', storeSpv (spvRow cfg moment body vaultId nullifierHash txHash amount) db = .ok db') ↔
      Fresh db vaultId ⟨body.commitment, nullifierHash, txHash, amount⟩ := by
  have absent : ∀ row ∈ db.vaults.rows, row.id ≠ vaultId := by
    intro row member same
    have unseen := Table.find?_none missing member
    simp [same] at unseen
  have inserts : (∃ db', storeSpv (spvRow cfg moment body vaultId nullifierHash txHash amount) db =
      .ok db') ↔ ∃ vaults, db.vaults.insert
        (spvRow cfg moment body vaultId nullifierHash txHash amount) = .ok vaults := by
    have unknown : (vaultById db
        (spvRow cfg moment body vaultId nullifierHash txHash amount).id).isSome = false := by
      show (vaultById db vaultId).isSome = false
      rw [missing]
      rfl
    simp only [storeSpv, unknown, Bool.false_eq_true, if_false, insertVault, bind_eq_ok,
      orThrow_ok, pure_eq_ok, Except.ok.injEq]
    constructor
    · rintro ⟨db', vaults, inserted, rfl⟩
      exact ⟨vaults, inserted⟩
    · rintro ⟨vaults, inserted⟩
      exact ⟨_, vaults, inserted, rfl⟩
  rw [inserts, Table.insert_accepted_iff, Fresh]
  have check : vaultSchema.check (spvRow cfg moment body vaultId nullifierHash txHash amount) =
      isTxHash txHash := by
    simp [vaultSchema, spvRow, isTxHashOrNull]
  rw [check]
  refine and_congr_right fun _ => forall₂_congr fun row member => ?_
  rw [vault_apart]
  constructor
  · rintro ⟨-, commitment, nullifier⟩
    exact ⟨absent row member, commitment, fun same => nullifier _ same rfl⟩
  · rintro ⟨id, commitment, nullifier⟩
    refine ⟨id, commitment, fun hash own same => nullifier ?_⟩
    rw [own, ← same]
    rfl

/-- A revived vault stays apart from the others unless it takes a nullifier of theirs. -/
theorem revived_apart_iff {v : VaultRow} (member : v ∈ db.vaults.rows) :
    (∀ r ∈ db.vaults.rows, r ≠ v → vaultSchema.clash r
        (revived (spvRow cfg moment body vaultId nullifierHash txHash amount) v) = false) ↔
      (v.nullifierHash = none →
        ∀ other ∈ db.vaults.rows, other.nullifierHash ≠ some nullifierHash) := by
  let row := spvRow cfg moment body vaultId nullifierHash txHash amount
  have apart : ∀ r ∈ db.vaults.rows, r ≠ v → vaultSchema.clash r v = false := by
    intro r r_mem other
    by_contra clash
    exact other (db.vaults.eq_of_clash r_mem member (by simpa using clash))
  cases own : v.nullifierHash with
  | some kept =>
      simp only [reduceCtorEq, false_implies, iff_true]
      intro r r_mem other
      obtain ⟨id, commitment, nullifier⟩ := vault_apart.mp (apart r r_mem other)
      refine vault_apart.mpr ⟨id, commitment, fun hash holds same => nullifier hash holds ?_⟩
      simpa [revived, own] using same
  | none =>
      simp only [true_implies]
      have taken : (revived row v).nullifierHash = some nullifierHash := by
        simp [revived, own, row, spvRow]
      constructor
      · intro clear other other_mem holds
        by_cases here : other = v
        · rw [here, own] at holds
          cases holds
        · exact (vault_apart.mp (clear other other_mem here)).2.2 _ holds taken
      · intro unused r r_mem other
        obtain ⟨id, commitment, -⟩ := vault_apart.mp (apart r r_mem other)
        refine vault_apart.mpr ⟨id, commitment, fun hash holds same => unused r r_mem ?_⟩
        rw [holds, ← same, taken]

/-- With a vault of this id the store is accepted exactly when the vault has its own nullifier
or nobody has the new one. -/
theorem update_accepted_iff {v : VaultRow} (found : vaultById db vaultId = some v) :
    (∃ db', storeSpv (spvRow cfg moment body vaultId nullifierHash txHash amount) db = .ok db') ↔
      isTxHash txHash = true ∧ (v.nullifierHash = none →
        ∀ other ∈ db.vaults.rows, other.nullifierHash ≠ some nullifierHash) := by
  obtain ⟨member, chosen⟩ := Table.find?_some found
  rw [beq_iff_eq] at chosen
  let row := spvRow cfg moment body vaultId nullifierHash txHash amount
  have updates : (∃ db', storeSpv row db = .ok db') ↔
      ∃ vaults, db.vaults.update (fun r => r.id == row.id) (revived row) = .ok vaults := by
    have known : (vaultById db row.id).isSome = true := by
      show (vaultById db vaultId).isSome = true
      rw [found]
      rfl
    simp only [storeSpv, known, if_true, updateVaults, bind_eq_ok, orThrow_ok, pure_eq_ok,
      Except.ok.injEq]
    constructor
    · rintro ⟨db', vaults, updated, rfl⟩
      exact ⟨vaults, updated⟩
    · rintro ⟨vaults, updated⟩
      exact ⟨_, vaults, updated, rfl⟩
  have only : ∀ r ∈ db.vaults.rows, (r.id == row.id) = true ↔ r = v := by
    intro r r_mem
    rw [beq_iff_eq]
    constructor
    · exact eq_of_found found r_mem
    · rintro rfl
      exact chosen
  have old := db.vaults.checked v member
  have check : vaultSchema.check (revived row v) = isTxHash txHash := by
    simp only [vaultSchema, Bool.and_eq_true] at old
    show ([30, 90, 365].contains v.lockDurationDays && isTxHash txHash &&
      isTxHashOrNull v.withdrawTxHash) = isTxHash txHash
    rw [old.1.1, old.2, Bool.true_and, Bool.and_true]
  rw [updates, Table.update_accepted_iff db.vaults member (vault_keyed v) only, check,
    revived_apart_iff cfg moment body nullifierHash txHash amount member]

/-- The deposit is stored and no earlier one is lost. -/
def Kept (crypto : Crypto) (db db' : Db) (deposit : Deposit) : Prop :=
  deposit ∈ recorded crypto db' ∧ recorded crypto db ⊆ recorded crypto db'

theorem kept_of_same {crypto : Crypto} {deposit : Deposit} :
    Kept crypto db db deposit ↔ deposit ∈ recorded crypto db :=
  and_iff_left (List.Subset.refl _)

theorem inserted_kept_iff (missing : vaultById db vaultId = none) :
    Kept cfg.crypto db
        (orLogged (storeSpv (spvRow cfg moment body vaultId nullifierHash txHash amount)) db)
        ⟨body.commitment, nullifierHash, txHash, amount⟩ ↔
      ⟨body.commitment, nullifierHash, txHash, amount⟩ ∈ recorded cfg.crypto db ∨
        Fresh db vaultId ⟨body.commitment, nullifierHash, txHash, amount⟩ := by
  have accepted := insert_accepted_iff cfg moment body nullifierHash txHash amount missing
  unfold orLogged
  cases outcome : storeSpv (spvRow cfg moment body vaultId nullifierHash txHash amount) db with
  | error message =>
      rw [kept_of_same, or_iff_left]
      intro fresh
      obtain ⟨db', stored⟩ := accepted.mpr fresh
      rw [outcome] at stored
      cases stored
  | ok db' =>
      have rows : db'.vaults.rows = db.vaults.rows ++
          [spvRow cfg moment body vaultId nullifierHash txHash amount] := by
        rcases (storeSpv_ok outcome).1 with ⟨-, rows⟩ | ⟨known, -⟩
        · exact rows
        · rw [show (spvRow cfg moment body vaultId nullifierHash txHash amount).id = vaultId from rfl,
            missing] at known
          cases known
      have grows : recorded cfg.crypto db' = recorded cfg.crypto db ++
          [⟨body.commitment, nullifierHash, txHash, amount⟩] := by
        rw [recorded, rows, List.filterMap_append, ← recorded]
        simp [depositOf_spvRow]
      refine iff_of_true ⟨?_, ?_⟩ (Or.inr (accepted.mp ⟨db', outcome⟩))
      · rw [grows]
        simp
      · rw [grows]
        exact List.subset_append_left _ _

/-- A store that is refused leaves the deposit where it was; the vault then waits for no such
deposit, and stands for no deposit that could be lost. -/
theorem refused_kept_iff {v : VaultRow} (found : vaultById db vaultId = some v)
    (refused : ¬ (isTxHash txHash = true ∧ (v.nullifierHash = none →
      ∀ other ∈ db.vaults.rows, other.nullifierHash ≠ some nullifierHash))) :
    Kept cfg.crypto db db ⟨body.commitment, nullifierHash, txHash, amount⟩ ↔
      Vacant cfg.crypto db vaultId txHash ∧
        (⟨body.commitment, nullifierHash, txHash, amount⟩ ∈ recorded cfg.crypto db ∨
          Awaited cfg.crypto db vaultId ⟨body.commitment, nullifierHash, txHash, amount⟩) := by
  rw [kept_of_same]
  constructor
  · intro known
    refine ⟨?_, Or.inl known⟩
    intro row row_mem same deposit holds
    rw [eq_of_found found row_mem same] at holds
    -- the deposit is known, so its hash is one; the vault has a nullifier: it would be updated
    obtain ⟨other, other_mem, records⟩ := (mem_recorded cfg.crypto).mp known
    obtain ⟨-, -, -, hash, -⟩ := (depositOf_eq_some cfg.crypto).mp records
    have legible := db.vaults.checked other other_mem
    simp only [vaultSchema, hash, isTxHashOrNull, Bool.and_eq_true] at legible
    obtain ⟨-, -, nullifier, -, -⟩ := (depositOf_eq_some cfg.crypto).mp holds
    refine absurd ⟨legible.1.2, ?_⟩ refused
    rw [nullifier]
    intro none_
    cases none_
  · rintro ⟨-, known | ⟨legible, row, row_mem, same, -, -, nullifier⟩⟩
    · exact known
    · refine absurd ⟨legible, ?_⟩ refused
      rw [← eq_of_found found row_mem same]
      rcases nullifier with own | ⟨-, unused⟩
      · rw [own]
        intro none_
        cases none_
      · exact fun _ => unused

/-- A revived vault brings its commitment and amount, and its nullifier unless it has none. -/
theorem depositOf_revived {v : VaultRow} {deposit : Deposit} :
    depositOf cfg.crypto
        (revived (spvRow cfg moment body vaultId nullifierHash txHash amount) v) = some deposit ↔
      v.commitment = deposit.commitment ∧ txHash = deposit.txHash ∧
        decryptAmount cfg.crypto v.encryptedAmount v.salt = .ok deposit.amount ∧
        (v.nullifierHash = some deposit.nullifierHash ∨
          v.nullifierHash = none ∧ nullifierHash = deposit.nullifierHash) := by
  rw [depositOf_eq_some]
  cases own : v.nullifierHash with
  | none => simp [revived, spvRow, own, and_comm, and_left_comm]
  | some kept => simp [revived, spvRow, own, and_comm, and_left_comm]

theorem updated_kept_iff {v : VaultRow} (found : vaultById db vaultId = some v) :
    Kept cfg.crypto db
        (orLogged (storeSpv (spvRow cfg moment body vaultId nullifierHash txHash amount)) db)
        ⟨body.commitment, nullifierHash, txHash, amount⟩ ↔
      Vacant cfg.crypto db vaultId txHash ∧
        (⟨body.commitment, nullifierHash, txHash, amount⟩ ∈ recorded cfg.crypto db ∨
          Awaited cfg.crypto db vaultId ⟨body.commitment, nullifierHash, txHash, amount⟩) := by
  have accepted := update_accepted_iff cfg moment body nullifierHash txHash amount found
  unfold orLogged
  cases outcome : storeSpv (spvRow cfg moment body vaultId nullifierHash txHash amount) db with
  | error message =>
      refine refused_kept_iff cfg body nullifierHash txHash amount found ?_
      intro fits
      obtain ⟨db', stored⟩ := accepted.mpr fits
      rw [outcome] at stored
      cases stored
  | ok db' =>
      obtain ⟨legible, unused⟩ := accepted.mp ⟨db', outcome⟩
      obtain ⟨member, chosen⟩ := Table.find?_some found
      rw [beq_iff_eq] at chosen
      have revives : Revives (spvRow cfg moment body vaultId nullifierHash txHash amount) v db db' :=
        storeSpv_revives found outcome
      rw [Kept, revives.recorded_subset_iff member]
      constructor
      · rintro ⟨stored, earlier⟩
        constructor
        · intro r r_mem same deposit holds
          rw [eq_of_found found r_mem same] at holds
          exact (Option.some.inj (earlier deposit holds)).symm
        · rcases revives.recorded_origin stored with brought | old
          · obtain ⟨commitment, -, decrypts, nullifier⟩ :=
              (depositOf_revived cfg moment body nullifierHash txHash amount).mp brought
            refine Or.inr ⟨legible, v, member, chosen, commitment, decrypts, ?_⟩
            rcases nullifier with own | ⟨free, -⟩
            · exact Or.inl own
            · exact Or.inr ⟨free, unused free⟩
          · exact Or.inl old
      · rintro ⟨vacant, stored⟩
        have earlier : ∀ deposit, depositOf cfg.crypto v = some deposit →
            some txHash = some deposit.txHash := by
          intro deposit holds
          rw [vacant v member chosen deposit holds]
        refine ⟨?_, earlier⟩
        rcases stored with known | ⟨-, r, r_mem, same, commitment, decrypts, nullifier⟩
        · exact (revives.recorded_subset_iff member).mpr earlier known
        · rw [eq_of_found found r_mem same] at commitment decrypts nullifier
          refine (mem_recorded cfg.crypto).mpr ⟨_, revives.present, ?_⟩
          refine (depositOf_revived cfg moment body nullifierHash txHash amount).mpr
            ⟨commitment, rfl, decrypts, ?_⟩
          rcases nullifier with own | ⟨free, -⟩
          · exact Or.inl own
          · exact Or.inr ⟨free, rfl⟩

/-- What a store, done or refused, leaves of the deposits. -/
theorem stored_kept_iff (db : Db) (vaultId : Text) :
    Kept cfg.crypto db
        (orLogged (storeSpv (spvRow cfg moment body vaultId nullifierHash txHash amount)) db)
        ⟨body.commitment, nullifierHash, txHash, amount⟩ ↔
      Vacant cfg.crypto db vaultId txHash ∧
        (⟨body.commitment, nullifierHash, txHash, amount⟩ ∈ recorded cfg.crypto db ∨
          Fresh db vaultId ⟨body.commitment, nullifierHash, txHash, amount⟩ ∨
          Awaited cfg.crypto db vaultId ⟨body.commitment, nullifierHash, txHash, amount⟩) := by
  cases found : vaultById db vaultId with
  | none =>
      have absent : ∀ row ∈ db.vaults.rows, row.id ≠ vaultId := by
        intro row member same
        have unseen := Table.find?_none found member
        simp [same] at unseen
      have vacant : Vacant cfg.crypto db vaultId txHash := fun row member same =>
        absurd same (absent row member)
      have unawaited : ¬ Awaited cfg.crypto db vaultId
          ⟨body.commitment, nullifierHash, txHash, amount⟩ := by
        rintro ⟨-, row, member, same, -⟩
        exact absent row member same
      rw [inserted_kept_iff cfg moment body nullifierHash txHash amount found, or_iff_left unawaited,
        and_iff_right vacant]
  | some v =>
      have stale : ¬ Fresh db vaultId ⟨body.commitment, nullifierHash, txHash, amount⟩ := by
        rintro ⟨-, apart⟩
        obtain ⟨member, chosen⟩ := Table.find?_some found
        exact (apart v member).1 (beq_iff_eq.mp chosen)
      rw [updated_kept_iff cfg moment body nullifierHash txHash amount found, or_iff_right stale]

end Storing

/-- The tasks of the handler of one spv-deposit request. -/
inductive Serves (body : SpvDepositBody) : DepositTask → Prop where
  | header (attempt : Nat) : Serves body (.header body attempt)
  | executing : Serves body (.executing (.spv body))
  | waiting (txHash : Text) (attempt : Nat) : Serves body (.waiting txHash attempt (.spv body))

/-- Only the receipt of its transaction makes the handler acknowledge the deposit. -/
theorem acknowledged {cfg : Config} {moment : Moment} {db : Db} {task : DepositTask}
    {reply : RpcReply} {body : SpvDepositBody} {turn : DepositTurn} {answer : DepositAnswer}
    {vaultId nullifierHash : Text} (serves : Serves body task)
    (stores : body.stores = some (vaultId, nullifierHash))
    (resumed : resumeDeposit cfg moment db task reply = some turn)
    (answered : turn.answer = some (.ok answer)) :
    ∃ txHash amount, answer = .deposited txHash body.bitcoinTxid body.vaultId ∧
      amountInWei body.amount = some amount ∧
      turn.db = orLogged (storeSpv (spvRow cfg moment body vaultId nullifierHash txHash amount))
        db := by
  cases serves with
  | header attempt =>
      cases reply with
      | headerStored stored =>
          cases resumed
          unfold afterHeader at answered
          split_ifs at answered <;> cases answered
      | _ => cases resumed
  | executing =>
      cases reply with
      | executed reply =>
          cases resumed
          cases reply <;> cases answered
      | _ => cases resumed
  | waiting txHash attempt =>
      cases reply with
      | receipt reply =>
          cases resumed
          unfold afterReceipt at answered ⊢
          cases waited : waitOnce txHash attempt reply with
          | failed error =>
              rw [waited] at answered
              cases answered
          | again attempt =>
              rw [waited] at answered
              cases answered
          | confirmed receipt =>
              rw [waited] at answered
              simp only [afterConfirmed, afterSpv, stores] at answered ⊢
              cases converted : amountInWei body.amount with
              | none =>
                  rw [converted] at answered
                  cases answered
              | some amount =>
                  rw [converted] at answered
                  cases answered
                  exact ⟨txHash, amount, rfl, rfl, rfl⟩
      | _ => cases resumed

/-- An acknowledged deposit that carries a vault id and a nullifier is stored, with all that
were stored before it, exactly when its vault stands for no other deposit and it is stored
already, is new in all its keys, or is what its vault waits for. -/
theorem acknowledged_kept_iff {cfg : Config} {moment : Moment} {db : Db} {task : DepositTask}
    {reply : RpcReply} {body : SpvDepositBody} {turn : DepositTurn} {answer : DepositAnswer}
    {vaultId nullifierHash : Text} (serves : Serves body task)
    (stores : body.stores = some (vaultId, nullifierHash))
    (resumed : resumeDeposit cfg moment db task reply = some turn)
    (answered : turn.answer = some (.ok answer)) :
    ∃ txHash amount, answer = .deposited txHash body.bitcoinTxid body.vaultId ∧
      amountInWei body.amount = some amount ∧
      let deposit : Deposit := ⟨body.commitment, nullifierHash, txHash, amount⟩
      (deposit ∈ recorded cfg.crypto turn.db ∧
          recorded cfg.crypto db ⊆ recorded cfg.crypto turn.db ↔
        Vacant cfg.crypto db vaultId txHash ∧
          (deposit ∈ recorded cfg.crypto db ∨ Fresh db vaultId deposit ∨
            Awaited cfg.crypto db vaultId deposit)) := by
  obtain ⟨txHash, amount, told, converted, written⟩ := acknowledged serves stores resumed answered
  refine ⟨txHash, amount, told, converted, ?_⟩
  have kept := stored_kept_iff cfg moment body nullifierHash txHash amount db vaultId
  rw [← written] at kept
  exact kept

section Collision

open Server

/-- The database after one deposit. -/
def acknowledgedDb : Db :=
  ((GuardedRun.run (step covenantMode) (boot sampleGenesis) depositLabels).map State.db).getD
    Database.empty

/-- Another deposit under the same vault id. -/
def collidingDeposit : SpvDepositBody :=
  { sampleDeposit with commitment := ['0', 'x', '6'], nullifierHash := some ['0', 'x', '8'] }

/-- The second deposit is answered with success; its row is the first one with a new hash. -/
def collidedTurn : DepositTurn :=
  afterReceipt covenantMode.toConfig (sampleMoment ['c']) acknowledgedDb (sampleHash '4') 1
    (.spv collidingDeposit) (.ok ⟨1, true, []⟩)

private theorem sample_amount : amountInWei sampleDeposit.amount = some 1000000000000000 := by
  decide +kernel

private theorem collided_answer :
    collidedTurn.answer = some (.ok (.deposited (sampleHash '4') none (some nilUuid))) := by
  have converted : amountInWei collidingDeposit.amount = some 1000000000000000 := sample_amount
  have stores : collidingDeposit.stores = some (nilUuid, ['0', 'x', '8']) := rfl
  show (afterSpv covenantMode.toConfig (sampleMoment ['c']) acknowledgedDb (sampleHash '4')
    collidingDeposit).answer = _
  simp only [afterSpv, stores, converted]
  rfl

theorem collision_loses :
    ¬ ∀ (db : Db) (body : SpvDepositBody) (task : DepositTask) (reply : RpcReply)
      (turn : DepositTurn) (answer : DepositAnswer) (vaultId nullifierHash : Text),
      body.accepted = true → Serves body task → body.stores = some (vaultId, nullifierHash) →
      resumeDeposit covenantMode.toConfig (sampleMoment ['c']) db task reply = some turn →
      turn.answer = some (.ok answer) →
      ∃ txHash amount, answer = .deposited txHash body.bitcoinTxid body.vaultId ∧
        amountInWei body.amount = some amount ∧
        Kept covenantMode.crypto db turn.db ⟨body.commitment, nullifierHash, txHash, amount⟩ := by
  intro claimed
  have before : recorded covenantMode.crypto acknowledgedDb =
      [⟨['0', 'x', '5'], ['0', 'x', '7'], sampleHash '3', 1000000000000000⟩] := by
    decide +kernel
  have after : recorded covenantMode.crypto collidedTurn.db =
      [⟨['0', 'x', '5'], ['0', 'x', '7'], sampleHash '4', 1000000000000000⟩] := by
    decide +kernel
  have accepted : collidingDeposit.accepted = true := by decide +kernel
  obtain ⟨_, _, -, -, -, earlier⟩ := claimed acknowledgedDb collidingDeposit
    (.waiting (sampleHash '4') 1 (.spv collidingDeposit)) (.receipt (.ok ⟨1, true, []⟩)) collidedTurn
    (.deposited (sampleHash '4') none (some nilUuid)) nilUuid ['0', 'x', '8'] accepted
    (.waiting _ _) rfl rfl collided_answer
  rw [before, after] at earlier
  exact absurd (earlier List.mem_cons_self) (by decide)

/-- On an empty database the deposit is stored. -/
def firstTurn : DepositTurn :=
  afterReceipt covenantMode.toConfig (sampleMoment ['c']) Database.empty (sampleHash '3') 1
    (.spv sampleDeposit) (.ok ⟨1, true, []⟩)

theorem acknowledged_kept_iff_first :
    (⟨['0', 'x', '5'], ['0', 'x', '7'], sampleHash '3', 1000000000000000⟩ : Deposit) ∈
      recorded covenantMode.crypto firstTurn.db := by
  have stores : sampleDeposit.stores = some (nilUuid, ['0', 'x', '7']) := rfl
  have resumed : resumeDeposit covenantMode.toConfig (sampleMoment ['c']) Database.empty
      (.waiting (sampleHash '3') 1 (.spv sampleDeposit)) (.receipt (.ok ⟨1, true, []⟩)) =
        some firstTurn := rfl
  have answered : firstTurn.answer =
      some (.ok (.deposited (sampleHash '3') none (some nilUuid))) := by
    show (afterSpv covenantMode.toConfig (sampleMoment ['c']) Database.empty (sampleHash '3')
      sampleDeposit).answer = _
    simp only [afterSpv, stores, sample_amount]
    rfl
  obtain ⟨txHash, amount, told, converted, kept⟩ :=
    acknowledged_kept_iff (.waiting (sampleHash '3') 1) stores resumed answered
  cases told
  cases sample_amount.symm.trans converted
  refine (kept.mpr ⟨?_, Or.inr (Or.inl ⟨by decide, ?_⟩)⟩).1
  · intro row member
    cases member
  · intro row member
    cases member

end Collision

end PrivateBtc.Backend.AcknowledgedDeposits
